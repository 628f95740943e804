import Mathlib.Data.List.Nodup

/-!
# Dictionaries that keep their order

A dictionary is a list of pairs in the order in which its keys came. To set a
key that is there replaces the value where it stands.
-/

namespace Dict

variable {κ β : Type} {k : κ} {v : β} {l : List (κ × β)} {name : β → κ}

/-- Each value stands under its own name, and once. -/
structure Named (name : β → κ) (l : List (κ × β)) : Prop where
  nodup : (l.map Prod.fst).Nodup
  name_eq : ∀ x ∈ l, name x.2 = x.1

namespace Named

theorem nil : Named name ([] : List (κ × β)) := ⟨List.nodup_nil, by simp⟩

theorem nodup_names (h : Named name l) : ((l.map Prod.snd).map name).Nodup := by
  have he : (l.map Prod.snd).map name = l.map Prod.fst := by
    rw [List.map_map]
    exact List.map_congr_left h.name_eq
  rw [he]
  exact h.nodup

end Named

variable [DecidableEq κ]

def set (k : κ) (v : β) : List (κ × β) → List (κ × β)
  | [] => [(k, v)]
  | x :: l => if x.1 = k then (k, v) :: l else x :: set k v l

def get? (k : κ) (l : List (κ × β)) : Option β := (l.find? fun x => x.1 = k).map Prod.snd

theorem mem_of_set {x : κ × β} : ∀ {l : List (κ × β)}, x ∈ set k v l → x = (k, v) ∨ x ∈ l
  | [], h => .inl (List.mem_singleton.mp h)
  | y :: l, h => by
    unfold set at h
    split at h
    · rcases List.mem_cons.mp h with h | h
      · exact .inl h
      · exact .inr (List.mem_cons_of_mem y h)
    · rcases List.mem_cons.mp h with rfl | h
      · exact .inr List.mem_cons_self
      · exact (mem_of_set h).imp_right (List.mem_cons_of_mem y)

theorem nodup_set (hn : (l.map Prod.fst).Nodup) (k : κ) (v : β) : ((set k v l).map Prod.fst).Nodup := by
  induction l with
  | nil => exact List.nodup_singleton _
  | cons y l ih =>
    rw [List.map_cons, List.nodup_cons] at hn
    unfold set
    by_cases hy : y.1 = k
    · rw [if_pos hy, List.map_cons, List.nodup_cons]
      exact hy ▸ hn
    · rw [if_neg hy, List.map_cons, List.nodup_cons]
      refine ⟨fun hm => ?_, ih hn.2⟩
      obtain ⟨x, hx, he⟩ := List.mem_map.mp hm
      rcases mem_of_set hx with rfl | hx
      · exact hy he.symm
      · exact hn.1 (he ▸ List.mem_map_of_mem hx)

theorem mem_of_get? (h : get? k l = some v) : (k, v) ∈ l := by
  obtain ⟨x, hx, rfl⟩ := Option.map_eq_some_iff.mp h
  obtain rfl : x.1 = k := by simpa using List.find?_some hx
  exact List.mem_of_find?_eq_some hx

theorem get?_of_mem (h : k ∈ l.map Prod.fst) : ∃ v, get? k l = some v := by
  obtain ⟨x, hx, rfl⟩ := List.mem_map.mp h
  have hf : (l.find? fun y => y.1 = x.1).isSome := List.find?_isSome.mpr ⟨x, hx, by simp⟩
  obtain ⟨y, hy⟩ := Option.isSome_iff_exists.mp hf
  exact ⟨y.2, by rw [get?, hy]; rfl⟩

theorem Named.set (h : Named name l) (v : β) : Named name (set (name v) v l) := by
  refine ⟨nodup_set h.nodup _ v, fun x hx => ?_⟩
  rcases mem_of_set hx with rfl | hx
  · rfl
  · exact h.name_eq x hx

end Dict
