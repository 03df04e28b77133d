/-! # Maps from names

A `NameMap` has an entry for every name that was inserted, with the value that was inserted last.
-/

namespace MiniC

structure NameMap (α : Type) where
  entries : List (String × α)
  deriving DecidableEq, Repr

namespace NameMap

variable {α : Type}

def empty : NameMap α := ⟨[]⟩

instance : EmptyCollection (NameMap α) := ⟨empty⟩

instance : Inhabited (NameMap α) := ⟨empty⟩

def get? (m : NameMap α) (name : String) : Option α := (m.entries.find? (·.1 = name)).map (·.2)

def replace (name : String) (value : α) : List (String × α) → List (String × α)
  | [] => [(name, value)]
  | entry :: rest =>
    if entry.1 = name then (name, value) :: rest else entry :: replace name value rest

def insert (m : NameMap α) (name : String) (value : α) : NameMap α :=
  ⟨replace name value m.entries⟩

/-- Insert a value and tell what the name had before. -/
def exchange (m : NameMap α) (name : String) (value : α) : Option α × NameMap α :=
  (m.get? name, m.insert name value)

def size (m : NameMap α) : Nat := m.entries.length

def isEmpty (m : NameMap α) : Bool := m.entries.isEmpty

def ofNames (names : List String) (value : α) : NameMap α :=
  names.foldl (fun m name => m.insert name value) empty

@[simp] theorem get?_empty (name : String) : (empty : NameMap α).get? name = none := rfl

theorem find?_replace_self (name : String) (value : α) (l : List (String × α)) :
    (replace name value l).find? (·.1 = name) = some (name, value) := by
  induction l with
  | nil => simp [replace]
  | cons entry rest ih => by_cases h : entry.1 = name <;> simp [replace, h, ih]

theorem find?_replace_of_ne {name other : String} (h : name ≠ other) (value : α)
    (l : List (String × α)) :
    (replace name value l).find? (·.1 = other) = l.find? (·.1 = other) := by
  induction l with
  | nil => simp [replace, h]
  | cons entry rest ih =>
    by_cases he : entry.1 = name
    · simp [replace, he, h]
    · simp [replace, he, List.find?_cons, ih]

theorem mem_of_get? {m : NameMap α} {name : String} {value : α} (h : m.get? name = some value) :
    (name, value) ∈ m.entries := by
  obtain ⟨entry, hfind, rfl⟩ := Option.map_eq_some_iff.mp h
  have hname : entry.1 = name := by simpa using List.find?_some hfind
  exact hname ▸ List.mem_of_find?_eq_some hfind

theorem get?_insert_self (m : NameMap α) (name : String) (value : α) :
    (m.insert name value).get? name = some value := by
  simp [get?, insert, find?_replace_self]

theorem get?_insert_of_ne (m : NameMap α) {name other : String} (h : name ≠ other) (value : α) :
    (m.insert name value).get? other = m.get? other := by
  simp [get?, insert, find?_replace_of_ne h]

theorem get?_insert (m : NameMap α) (name other : String) (value : α) :
    (m.insert name value).get? other = if name = other then some value else m.get? other := by
  split
  next h => exact h ▸ m.get?_insert_self name value
  next h => exact m.get?_insert_of_ne h value

end NameMap

end MiniC
