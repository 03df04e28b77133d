import MiniC.Proofs.NameMap
import MiniC.Scope.Table

/-! # Local tables

A table of locals keeps its names twice, in the list of their order and in the map of their
variables. Insertions keep the two in step: the list has no name twice, and has just the names that
the map knows. A table in step is a map from names, whose entries are what a walk over the list
finds.
-/

namespace MiniC

namespace LocalTable

variable {l : LocalTable} {before : List (String × VarId)}

/-- The list has just the names of the map, each of them once. -/
structure InStep (l : LocalTable) : Prop where
  nodup : l.order.Nodup
  mem_order_iff : ∀ name, name ∈ l.order ↔ l.map.get? name ≠ none

theorem inStep_empty : empty.InStep where
  nodup := .nil
  mem_order_iff name := by simp [empty]

theorem order_insert (l : LocalTable) (name : String) (id : VarId) :
    (l.insert name id).2.order = if l.map.get? name = none then l.order ++ [name] else l.order := by
  simp [insert, NameMap.exchange]

theorem InStep.insert (h : l.InStep) (name : String) (id : VarId) :
    (l.insert name id).2.InStep := by
  constructor
  case nodup =>
    rw [order_insert]
    split
    next hnone =>
      have hname : name ∉ l.order := fun hmem => (h.mem_order_iff name).mp hmem hnone
      rw [List.nodup_append]
      exact ⟨h.nodup, List.nodup_singleton name, by rintro a ha b hb rfl; simp_all⟩
    · exact h.nodup
  case mem_order_iff =>
    intro other
    have hget : (l.insert name id).2.map.get? other
        = if name = other then some id else l.map.get? other := l.map.get?_insert name other id
    rw [order_insert, hget]
    by_cases hother : name = other
    · subst hother
      rw [if_pos rfl]
      refine iff_of_true ?_ (Option.some_ne_none id)
      split
      · simp
      next hsome => exact (h.mem_order_iff name).mpr hsome
    · rw [if_neg hother, ← h.mem_order_iff]
      split
      · simp [Ne.symm hother]
      · rfl

/-- A table seen as the map of its entries. -/
def toNameMap (l : LocalTable) : NameMap VarId := ⟨l.entries⟩

theorem replace_filterMap {names : List String} {m : NameMap VarId} (hnodup : names.Nodup)
    (hnames : ∀ n ∈ names, m.get? n ≠ none) (name : String) (id : VarId) :
    NameMap.replace name id (names.filterMap fun n => (m.get? n).map (n, ·))
      = (if name ∈ names then names else names ++ [name]).filterMap fun n =>
        ((m.insert name id).get? n).map (n, ·) := by
  induction names with
  | nil => simp [NameMap.replace, NameMap.get?_insert_self]
  | cons n names ih =>
    obtain ⟨hn, hnodup⟩ := List.nodup_cons.mp hnodup
    obtain ⟨hfound, hnames⟩ := List.forall_mem_cons.mp hnames
    obtain ⟨v, hv⟩ := Option.ne_none_iff_exists'.mp hfound
    by_cases hname : n = name
    · subst hname
      have hrest : names.filterMap (fun a => (m.get? a).map (a, ·))
          = names.filterMap fun a => ((m.insert n id).get? a).map (a, ·) := by
        apply List.filterMap_congr
        intro a ha
        rw [m.get?_insert_of_ne fun hna : n = a => hn (hna ▸ ha)]
      simp [NameMap.replace, hv, NameMap.get?_insert_self, hrest]
    · have hmem : name ∈ n :: names ↔ name ∈ names := by simp [Ne.symm hname]
      have hget : (m.insert name id).get? n = some v :=
        (m.get?_insert_of_ne (Ne.symm hname) id).trans hv
      simp only [List.filterMap_cons, hv, Option.map_some, NameMap.replace, if_neg hname,
        ih hnodup hnames, hmem]
      split <;> simp [hget]

namespace InStep

/-- Insertion into a table in step is insertion into its map. -/
theorem toNameMap_insert (h : l.InStep) (name : String) (id : VarId) :
    (l.insert name id).2.toNameMap = l.toNameMap.insert name id := by
  have hfound : ∀ n ∈ l.order, l.map.get? n ≠ none := fun n => (h.mem_order_iff n).mp
  rw [toNameMap, toNameMap, NameMap.insert, entries, entries, order_insert,
    replace_filterMap h.nodup hfound]
  by_cases hname : l.map.get? name = none
  · rw [if_pos hname, if_neg fun hmem => hfound name hmem hname]
    rfl
  · rw [if_neg hname, if_pos ((h.mem_order_iff name).mpr hname)]
    rfl

theorem names_toNameMap (h : l.InStep) : l.toNameMap.names = l.order := by
  rw [NameMap.names, toNameMap, entries, List.map_filterMap]
  simp only [Option.map_map, Function.comp_def]
  have hfound : ∀ n ∈ l.order, (l.map.get? n).map (fun _ => n) = some n := by
    intro n hn
    obtain ⟨v, hv⟩ := Option.ne_none_iff_exists'.mp ((h.mem_order_iff n).mp hn)
    rw [hv, Option.map_some]
  rw [List.filterMap_congr hfound, List.filterMap_some]

theorem nodup_names (h : l.InStep) : l.toNameMap.names.Nodup := by
  rw [h.names_toNameMap]
  exact h.nodup

theorem get?_toNameMap (h : l.InStep) (name : String) : l.toNameMap.get? name = l.get? name := by
  apply Option.ext
  intro id
  constructor
  · intro hget
    exact get?_of_mem_entries (NameMap.mem_of_get? hget)
  · intro hget
    have hname : name ∈ l.order := by
      rw [h.mem_order_iff]
      exact Option.ne_none_iff_exists'.mpr ⟨id, hget⟩
    have hentry : (name, id) ∈ l.entries :=
      List.mem_filterMap.mpr ⟨name, hname, by rw [← get?, hget]; rfl⟩
    exact NameMap.get?_of_mem h.nodup_names hentry

theorem size_toNameMap (h : l.InStep) : l.toNameMap.size = l.size := by
  rw [NameMap.size, size, ← h.names_toNameMap, NameMap.names, List.length_map]

end InStep

/-- Insert one variable after another and tell each time which one it replaces. -/
def insertAll (l : LocalTable) : List (String × VarId) → List (Option VarId) × LocalTable
  | [] => ([], l)
  | (name, id) :: inserted =>
    let (old, l) := l.insert name id
    let (olds, l) := l.insertAll inserted
    (old :: olds, l)

/-- A run goes on from what was inserted before it. -/
theorem InStep.insertAll (h : l.InStep) (hbefore : l.toNameMap.Recalls before)
    (inserted : List (String × VarId)) :
    (l.insertAll inserted).2.InStep ∧
      (l.insertAll inserted).2.toNameMap.Recalls (before ++ inserted) ∧
      ∀ i, (l.insertAll inserted).1[i]?
        = inserted[i]?.map fun entry => NameMap.last? (before ++ inserted.take i) entry.1 := by
  induction inserted generalizing l before with
  | nil => exact ⟨h, (List.append_nil before).symm ▸ hbefore, fun i => rfl⟩
  | cons e inserted ih =>
    obtain ⟨name, id⟩ := e
    have hnext := hbefore.insert name id
    rw [← h.toNameMap_insert] at hnext
    obtain ⟨hstep, hrecalls, hanswers⟩ := ih (h.insert name id) hnext
    simp only [List.append_assoc, List.singleton_append] at hrecalls hanswers
    refine ⟨hstep, hrecalls, fun i => ?_⟩
    cases i with
    | zero =>
      have hold : (l.insert name id).1 = NameMap.last? before name :=
        (h.get?_toNameMap name).symm.trans (hbefore.get? name)
      simpa [LocalTable.insertAll] using hold
    | succ i => exact hanswers i

/-- What insertions leave behind in a table that was empty, and what they tell on the way. -/
structure Remembers (l : LocalTable) (inserted : List (String × VarId))
    (answers : List (Option VarId)) : Prop where
  /-- No name has two entries. -/
  nodup : (l.entries.map (·.1)).Nodup
  mem_names : ∀ name, name ∈ l.entries.map (·.1) ↔ name ∈ inserted.map (·.1)
  /-- The entries stand in the order in which their names were inserted first. -/
  ordered : (l.entries.map (·.1)).Pairwise fun a b =>
    (inserted.map (·.1)).idxOf a < (inserted.map (·.1)).idxOf b
  mem_entries : ∀ entry, entry ∈ l.entries ↔ NameMap.last? inserted entry.1 = some entry.2
  get? : ∀ name, l.get? name = NameMap.last? inserted name
  get?_eq_none_iff : ∀ name, l.get? name = none ↔ name ∉ inserted.map (·.1)
  size : l.size = (inserted.map (·.1)).toFinset.card
  /-- Each insertion is told the variable that its name had just before. -/
  told : ∀ i, answers[i]? = inserted[i]?.map fun entry => NameMap.last? (inserted.take i) entry.1

/-- After any insertions into the empty table, its entries are the names that occur, each once and
in the order of first insertion, with the variables inserted last. These are what is found, and
nothing else is. -/
theorem insertAll_remembers (inserted : List (String × VarId)) :
    (empty.insertAll inserted).2.Remembers inserted (empty.insertAll inserted).1 := by
  obtain ⟨hstep, hrecalls, htold⟩ := inStep_empty.insertAll NameMap.recalls_empty inserted
  rw [List.nil_append] at hrecalls
  have hget : ∀ name, (empty.insertAll inserted).2.get? name = NameMap.last? inserted name := by
    intro name
    rw [← hstep.get?_toNameMap, hrecalls.get?]
  constructor
  case nodup => exact hstep.nodup_names
  case mem_names => exact hrecalls.mem_names
  case ordered => exact hrecalls.ordered
  case mem_entries =>
    intro entry
    exact hrecalls.mem_entries
  case get? => exact hget
  case get?_eq_none_iff =>
    intro name
    rw [hget, NameMap.last?_eq_none_iff]
  case size => rw [← hstep.size_toNameMap, hrecalls.size]
  case told => exact htold

example : (empty.insertAll [("i", .ofIndex 0), ("j", .ofIndex 1), ("i", .ofIndex 2)])
    = ([none, none, some (.ofIndex 0)],
      ⟨["i", "j"], ⟨[("i", .ofIndex 2), ("j", .ofIndex 1)]⟩⟩) := by decide

end LocalTable

end MiniC
