import RlStatsApi.Error
import RlStatsApi.JsonValue

/-!
# What a reader finds in a text

A reader goes through a text from its start. In an object it finds the
members in their order, in an array the items, and then how the text ends. A
part of a text can be well formed without being a value: a number may be out
of range, or a text contain half a surrogate pair. Such a part cannot be read,
but it can be passed over.
-/

set_option autoImplicit false

namespace RlStatsApi.TextReader
open RlStatsApi.JsonValue RlStatsApi.Error

/-- The tree of a part's value, or the categories of the failures to read it
as a value and as a text, and to pass over it if that fails as well. -/
inductive Part where
  | held (tree : Value)
  | unheld (asValue asText : Category) (passed : Option Category)

/-- The end of the outermost value: its closing bracket with nothing or with
more text behind it, or the place where the text goes wrong before that. -/
inductive DocumentEnd where
  | closed
  | trailing (category : Category)
  | broken (category : Category)

/-- Neither an object nor an array. -/
def Part.Single : Part → Prop
  | .held (.object _) => False
  | .held (.array _) => False
  | _ => True

inductive Document where
  | object (members : List (String × Part)) (ending : DocumentEnd)
  | array (items : List Part) (ending : DocumentEnd)
  | single (part : Part) (h : part.Single) (ending : DocumentEnd)

/-! ## Reading -/

def Part.value : Part → Except Category Value
  | .held tree => .ok tree
  | .unheld category _ _ => .error category

def Part.text : Part → Except Category String
  | .held (.string s) => .ok s
  | .held _ => .error .data
  | .unheld _ category _ => .error category

def Part.skip : Part → Except Category Unit
  | .unheld _ _ (some category) => .error category
  | _ => .ok ()

/-- The value's own end. -/
def DocumentEnd.reached : DocumentEnd → Except Category Unit
  | .broken category => .error category
  | _ => .ok ()

/-- The end of the text. -/
def DocumentEnd.over : DocumentEnd → Except Category Unit
  | .closed => .ok ()
  | .trailing category => .error category
  | .broken category => .error category

def readMembers : List (String × Part) → Except Category Members
  | [] => .ok []
  | (k,p)::ps => do
    let v ← p.value
    let m ← readMembers ps
    return (k,v)::m

def readItems : List Part → Except Category (List Value)
  | [] => .ok []
  | p::ps => do
    let v ← p.value
    let xs ← readItems ps
    return v::xs

/-- The text as a value. A member that is given twice shows in the tree. -/
def Document.value : Document → Except Category Value
  | .object members ending => do
    let m ← readMembers members
    ending.over
    return .object m
  | .array items ending => do
    let xs ← readItems items
    ending.over
    return .array xs
  | .single part _ ending => do
    let v ← part.value
    ending.over
    return v

structure Reader where
  scan : String → Document

def Reader.value (read : Reader) (text : String) : Except Category Value := (read.scan text).value

instance : CoeFun Reader (fun _ => String → Except Category Value) := ⟨Reader.value⟩

/-! ## Readers of whole values -/

def documentOf : Value → Document
  | .object m => .object (m.map fun p => (p.1,.held p.2)) .closed
  | .array xs => .array (xs.map .held) .closed
  | .null => .single (.held .null) trivial .closed
  | .bool b => .single (.held (.bool b)) trivial .closed
  | .number n => .single (.held (.number n)) trivial .closed
  | .string s => .single (.held (.string s)) trivial .closed

/-- A reader of texts whose parts are all values. -/
def Reader.ofValues (values : String → Except Category Value) : Reader where
  scan text :=
    match values text with
    | .ok tree => documentOf tree
    | .error category => .single (.unheld category category (some category)) trivial .closed

theorem readMembers_held (m : Members) :
    readMembers (m.map fun p => (p.1,Part.held p.2)) = .ok m := by
  induction m with
  | nil => rfl
  | cons p m ih =>
    rw [List.map_cons, readMembers, ih]
    rfl

theorem readItems_held (xs : List Value) : readItems (xs.map Part.held) = .ok xs := by
  induction xs with
  | nil => rfl
  | cons x xs ih =>
    rw [List.map_cons, readItems, ih]
    rfl

theorem documentOf_value (tree : Value) : (documentOf tree).value = .ok tree := by
  cases tree with
  | object m =>
    rw [documentOf, Document.value, readMembers_held]
    rfl
  | array xs =>
    rw [documentOf, Document.value, readItems_held]
    rfl
  | _ => rfl

@[simp] theorem ofValues_value (values : String → Except Category Value) (text : String) :
    (Reader.ofValues values).value text = values text := by
  rw [Reader.value, Reader.ofValues]
  cases h : values text with
  | ok tree => simp only [h, documentOf_value]
  | error category =>
    simp only [h]
    rfl

/-! ## Fallible steps -/

section Steps

variable {ε α β : Type}

theorem bind_ok_iff (x : Except ε α) (f : α → Except ε β) (b : β) :
    (x >>= f) = .ok b ↔ ∃ a, x = .ok a ∧ f a = .ok b := by
  cases x with
  | error e => exact ⟨fun h => (by cases h),fun ⟨a,h,_⟩ => by cases h⟩
  | ok a => exact ⟨fun h => ⟨a,rfl,h⟩,fun ⟨_,h,hf⟩ => by cases h; exact hf⟩

theorem map_ok_iff (f : α → β) (x : Except ε α) (b : β) :
    f <$> x = .ok b ↔ ∃ a, x = .ok a ∧ f a = b := by
  cases x with
  | error e => exact ⟨fun h => (by cases h),fun ⟨a,h,_⟩ => by cases h⟩
  | ok a => exact ⟨fun h => ⟨a,rfl,by cases h; rfl⟩,fun ⟨_,h,hf⟩ => by cases h; cases hf; rfl⟩

theorem pure_ok_iff (a b : α) : (pure a : Except ε α) = .ok b ↔ a = b :=
  ⟨fun h => (by cases h; rfl),fun h => h ▸ rfl⟩

end Steps

end RlStatsApi.TextReader
