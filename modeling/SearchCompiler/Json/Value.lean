import SearchCompiler.Decimal.Shortest

/-!
JSON values as written: the members of an object keep their order and may repeat a name. A string
literal can be well formed and still have no text, when it escapes half of a surrogate pair; such a
literal, and an object with such a name, is a value of its own kind, so that a reader may pass over
it without being able to use it.
-/

namespace SearchCompiler.Json

/-- A number: a whole number within sixty-four bits, or a float. -/
inductive Number where
  | integer (value : Int)
  | float (value : Float)

/-- A JSON value. -/
inductive Value where
  | null
  | bool (value : Bool)
  | number (value : Number)
  | string (value : String)
  | array (elements : List Value)
  /-- Named values in the order in which they were written. -/
  | object (members : List (String × Value))
  /-- Well-formed text that denotes no value, because it escapes half of a surrogate pair. -/
  | garbled
  deriving Inhabited

namespace Value

/-- A whole number. -/
def natural (n : Nat) : Value := .number (.integer n)

/-- A float, written as null where it is infinite or undefined. -/
def float (x : Float) : Value := if Decimal.isFinite x then .number (.float x) else .null

/-- An array of strings. -/
def strings (texts : List String) : Value := .array (texts.map .string)

/-- The value of the first member of a name. -/
def member? (name : String) : Value → Option Value
  | .object members => members.lookup name
  | _ => none

/-- Values that are read back one by one are read back all together. -/
theorem mapM_written {α : Type} {write : α → Value} {read : Value → Option α} {items : List α}
    (reads : ∀ item ∈ items, read (write item) = some item) :
    (items.map write).mapM read = some items := by
  induction items with
  | nil => rfl
  | cons item rest ih =>
    rw [List.forall_mem_cons] at reads
    rw [List.map_cons, List.mapM_cons, reads.1, ih reads.2]
    rfl

end Value

end SearchCompiler.Json
