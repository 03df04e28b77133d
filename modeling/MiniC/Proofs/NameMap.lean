import Mathlib.Data.Finset.Card
import Mathlib.Data.List.Basic
import MiniC.NameMap

/-! # What a map from names remembers

Whatever was inserted into a map, it has one entry for each name that occurs, in the order in which
the names came first, with the value that came last. One more insertion keeps this.
-/

namespace MiniC

namespace NameMap

variable {α : Type} {m : NameMap α} {name : String} {value : α} {entry : String × α}
  {inserted : List (String × α)}

def names (m : NameMap α) : List String := m.entries.map (·.1)

theorem map_fst_replace (name : String) (value : α) (l : List (String × α)) :
    (replace name value l).map (·.1)
      = if name ∈ l.map (·.1) then l.map (·.1) else l.map (·.1) ++ [name] := by
  induction l with
  | nil => rfl
  | cons e rest ih =>
    by_cases h : e.1 = name
    · simp [replace, h]
    · have hne : name ≠ e.1 := Ne.symm h
      rw [replace, if_neg h, List.map_cons, ih, List.map_cons]
      simp only [List.mem_cons, hne, false_or]
      split <;> rfl

/-- A name that is known keeps its place, and a new one comes last. -/
theorem names_insert (m : NameMap α) (name : String) (value : α) :
    (m.insert name value).names = if name ∈ m.names then m.names else m.names ++ [name] :=
  map_fst_replace name value m.entries

theorem get?_of_mem (h : m.names.Nodup) (he : entry ∈ m.entries) :
    m.get? entry.1 = some entry.2 := by
  have hsome : (m.entries.find? (·.1 = entry.1)).isSome = true :=
    List.find?_isSome.mpr ⟨entry, he, decide_eq_true rfl⟩
  obtain ⟨e, hfind⟩ := Option.isSome_iff_exists.mp hsome
  have hname : e.1 = entry.1 := by simpa using List.find?_some hfind
  obtain rfl : e = entry :=
    List.inj_on_of_nodup_map h (List.mem_of_find?_eq_some hfind) he hname
  rw [get?, hfind, Option.map_some]

/-- The value that was inserted last under a name. -/
def last? (inserted : List (String × α)) (name : String) : Option α :=
  (inserted.reverse.find? (·.1 = name)).map (·.2)

theorem last?_concat (inserted : List (String × α)) (name other : String) (value : α) :
    last? (inserted ++ [(name, value)]) other
      = if name = other then some value else last? inserted other := by
  rw [last?, List.reverse_append, List.reverse_singleton, List.singleton_append, List.find?_cons]
  by_cases h : name = other <;> simp [h, last?]

theorem last?_eq_none_iff : last? inserted name = none ↔ name ∉ inserted.map (·.1) := by
  rw [last?, Option.map_eq_none_iff, List.find?_eq_none]
  simp only [List.mem_reverse, decide_eq_true_eq, List.mem_map, not_exists, not_and]

/-- A map that these insertions lead to. -/
structure Recalls (m : NameMap α) (inserted : List (String × α)) : Prop where
  mem_names : ∀ name, name ∈ m.names ↔ name ∈ inserted.map (·.1)
  /-- The names stand in the order in which they were inserted first. -/
  ordered : m.names.Pairwise fun a b =>
    (inserted.map (·.1)).idxOf a < (inserted.map (·.1)).idxOf b
  get? : ∀ name, m.get? name = last? inserted name

theorem recalls_empty : (empty : NameMap α).Recalls [] where
  mem_names := by simp [names, empty]
  ordered := .nil
  get? _ := rfl

namespace Recalls

theorem insert (h : m.Recalls inserted) (name : String) (value : α) :
    (m.insert name value).Recalls (inserted ++ [(name, value)]) := by
  have hidx : ∀ a ∈ m.names, (inserted.map (·.1) ++ [name]).idxOf a
      = (inserted.map (·.1)).idxOf a :=
    fun a ha => List.idxOf_append_of_mem ((h.mem_names a).mp ha)
  have hordered : m.names.Pairwise fun a b =>
      (inserted.map (·.1) ++ [name]).idxOf a < (inserted.map (·.1) ++ [name]).idxOf b := by
    refine h.ordered.imp_of_mem fun ha hb hab => ?_
    rwa [hidx _ ha, hidx _ hb]
  constructor
  case mem_names =>
    intro other
    rw [names_insert, List.map_append, List.mem_append, ← h.mem_names]
    split
    next hname =>
      refine ⟨Or.inl, fun hother => hother.elim id fun hnew => ?_⟩
      rwa [List.mem_singleton.mp hnew]
    · exact List.mem_append
  case ordered =>
    rw [names_insert, List.map_append]
    split
    · exact hordered
    next hname =>
      -- A new name was not inserted before, so it stands behind all others.
      have hnew : (inserted.map (·.1) ++ [name]).idxOf name = (inserted.map (·.1)).length := by
        rw [List.idxOf_append_of_notMem (mt (h.mem_names name).mpr hname)]
        simp
      refine List.pairwise_append.mpr ⟨hordered, List.pairwise_singleton .., fun a ha b hb => ?_⟩
      obtain rfl := List.mem_singleton.mp hb
      change (inserted.map (·.1) ++ [b]).idxOf a < (inserted.map (·.1) ++ [b]).idxOf b
      rw [hidx a ha, hnew]
      exact List.idxOf_lt_length_of_mem ((h.mem_names a).mp ha)
  case get? =>
    intro other
    rw [get?_insert, last?_concat, h.get?]

theorem nodup (h : m.Recalls inserted) : m.names.Nodup :=
  h.ordered.imp fun {a b} hlt (heq : a = b) => Nat.lt_irrefl _ (heq ▸ hlt)

theorem mem_entries (h : m.Recalls inserted) :
    entry ∈ m.entries ↔ last? inserted entry.1 = some entry.2 := by
  rw [← h.get?]
  exact ⟨get?_of_mem h.nodup, mem_of_get?⟩

theorem size (h : m.Recalls inserted) : m.size = (inserted.map (·.1)).toFinset.card := by
  have hnames : m.names.toFinset = (inserted.map (·.1)).toFinset := by
    ext name
    rw [List.mem_toFinset, List.mem_toFinset, h.mem_names]
  rw [← hnames, List.toFinset_card_of_nodup h.nodup, names, List.length_map, NameMap.size]

end Recalls

end NameMap

end MiniC
