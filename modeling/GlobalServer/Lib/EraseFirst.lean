import Mathlib.Data.List.Basic
import Mathlib.Data.List.Count

/-!
# Taking out by key

Some entries of a list are to be taken out, and only their keys are known: for
each key the first entry that has it goes. The right entries go when, among
those of one key, the ones to be taken out come first.
-/

namespace EraseFirst

open List

variable {α κ : Type} [DecidableEq κ] (key : α → κ)

/-- The list without the first entry of each of the keys, taken out one after another. -/
def eraseKeys (l : List α) (keys : List κ) : List α := keys.foldl (fun l k => l.eraseP fun x => key x = k) l

variable {key}

theorem eraseKeys_sublist (keys : List κ) : ∀ l : List α, (eraseKeys key l keys).Sublist l := by
  induction keys with
  | nil => exact fun l => Sublist.refl l
  | cons k keys ih => exact fun l => (ih _).trans eraseP_sublist

theorem filter_eraseP (l : List α) (m n : κ) : (l.eraseP fun x => key x = m).filter (fun x => key x = n) =
    (l.filter fun x => key x = n).drop (if m = n then 1 else 0) := by
  induction l with
  | nil => simp
  | cons a l ih =>
    by_cases ha : key a = m
    · rw [eraseP_cons_of_pos (by simpa using ha)]
      by_cases hmn : m = n
      · simp [ha, hmn]
      · simp [ha, hmn]
    · rw [eraseP_cons_of_neg (by simpa using ha)]
      by_cases han : key a = n
      · have hmn : ¬ m = n := fun e => ha (han.trans e.symm)
        rw [if_neg hmn] at ih ⊢
        simp [han, ih]
      · simp [han, ih]

/-- Of each key as many entries go, from the front, as it is named. -/
theorem filter_eraseKeys (n : κ) (keys : List κ) : ∀ l : List α,
    (eraseKeys key l keys).filter (fun x => key x = n) = (l.filter fun x => key x = n).drop (keys.count n) := by
  induction keys with
  | nil => exact fun l => rfl
  | cons k keys ih =>
    intro l
    have he : eraseKeys key l (k :: keys) = eraseKeys key (l.eraseP fun x => key x = k) keys := rfl
    rw [he, ih, filter_eraseP, drop_drop, count_cons, Nat.add_comm]
    simp

theorem drop_countP_iff (p : α → Bool) (l : List α) :
    (∀ x ∈ l.drop (l.countP p), p x = false) ↔ l.Pairwise fun a b => p b = true → p a = true := by
  induction l with
  | nil => simp
  | cons a l ih =>
    by_cases ha : p a = true
    · rw [countP_cons_of_pos ha, drop_succ_cons, ih, pairwise_cons]
      exact (and_iff_right fun _ _ _ => ha).symm
    · rw [countP_cons_of_neg ha, pairwise_cons]
      cases hk : l.countP p with
      | zero =>
        have hn : ∀ x ∈ l, p x = false := by simpa using countP_eq_zero.mp hk
        rw [drop_zero, forall_mem_cons]
        refine iff_of_true ⟨by simpa using ha, hn⟩ ⟨fun b hb hpb => ?_, ?_⟩
        · rw [hn b hb] at hpb
          cases hpb
        · refine pairwise_of_forall_mem_list fun a _ b hb hpb => ?_
          rw [hn b hb] at hpb
          cases hpb
      | succ k =>
        rw [drop_succ_cons]
        refine iff_of_false (fun h => ?_) fun h => ?_
        · have h0 : (l.drop k).countP p = 0 := countP_eq_zero.mpr (by simpa using h)
          have hk' : (l.take k).countP p ≤ k := Nat.le_trans countP_le_length (length_take_le _ _)
          rw [← take_append_drop k l, countP_append, h0] at hk
          omega
        · obtain ⟨b, hb, hpb⟩ := countP_pos_iff.mp (show 0 < l.countP p by omega)
          exact ha (h.1 b hb hpb)

theorem mem_drop_countP {p : α → Bool} {l : List α} (hl : l.Pairwise fun a b => p b = true → p a = true) {x : α}
    (hx : x ∈ l) (hp : p x = false) : x ∈ l.drop (l.countP p) := by
  induction l with
  | nil => exact hx
  | cons a l ih =>
    rw [pairwise_cons] at hl
    by_cases ha : p a = true
    · rw [countP_cons_of_pos ha, drop_succ_cons]
      apply ih hl.2
      rcases mem_cons.mp hx with rfl | hx
      · rw [ha] at hp
        cases hp
      · exact hx
    · have h0 : l.countP p = 0 := countP_eq_zero.mpr fun b hb hpb => ha (hl.1 b hb hpb)
      rwa [countP_cons_of_neg ha, h0, drop_zero]

theorem count_map_filter (p : α → Bool) (l : List α) (n : κ) :
    ((l.filter p).map key).count n = (l.filter fun x => key x = n).countP p := by
  rw [count_eq_countP, countP_map, countP_filter, countP_filter]
  exact countP_congr fun x _ => by simp [and_comm]

/-- Exactly the entries with `p` go, their keys being named, when none comes behind another entry of its key. -/
theorem eraseKeys_iff (p : α → Bool) (l : List α) :
    (∀ x ∈ eraseKeys key l ((l.filter p).map key), p x = false) ↔
      l.Pairwise fun a b => key a = key b → p b = true → p a = true := by
  have hsplit : ∀ (l : List α) (P : α → Prop), (∀ x ∈ l, P x) ↔ ∀ n, ∀ x ∈ l.filter (fun x => key x = n), P x := by
    intro l P
    constructor
    · exact fun h n x hx => h x (mem_of_mem_filter hx)
    · exact fun h x hx => h (key x) x (mem_filter.mpr ⟨hx, by simp⟩)
  rw [hsplit]
  simp only [filter_eraseKeys, count_map_filter, drop_countP_iff, pairwise_filter, decide_eq_true_eq]
  simp only [pairwise_iff_forall_sublist]
  constructor
  · intro h a b hab he
    exact h (key b) hab he rfl
  · intro h n a b hab ha hb
    exact h hab (ha.trans hb.symm)

theorem mem_eraseKeys {p : α → Bool} {l : List α}
    (h : ∀ x ∈ eraseKeys key l ((l.filter p).map key), p x = false) {x : α} (hx : x ∈ l) (hp : p x = false) :
    x ∈ eraseKeys key l ((l.filter p).map key) := by
  have hl : (l.filter fun y => key y = key x).Pairwise fun a b => p b = true → p a = true := by
    rw [pairwise_filter]
    refine ((eraseKeys_iff p l).mp h).imp fun hab ha hb => hab ?_
    simp only [decide_eq_true_eq] at ha hb
    exact ha.trans hb.symm
  have hm := mem_drop_countP hl (mem_filter.mpr ⟨hx, by simp⟩) hp
  rw [← count_map_filter, ← filter_eraseKeys] at hm
  exact mem_of_mem_filter hm

end EraseFirst
