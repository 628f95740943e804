import Mathlib.Data.List.Sort
import Mathlib.Data.List.TakeWhile
import Mathlib.Order.Lattice
import Mathlib.Order.Nat

/-!
# An index whose keys may be equal

The elements of a container in the order of a key; what comes later stands
behind its equals. An element that is changed stays where it is as long as the
order allows that.
-/

namespace OrderedIndex

variable {α κ : Type} [LinearOrder κ]

def Sorted (key : α → κ) (l : List α) : Prop := l.Pairwise fun x y => key x ≤ key y

def insert (key : α → κ) (x : α) (l : List α) : List α := l.orderedInsert (fun x y => key x < key y) x

/-- Whether `x` can stand between `a` and `b`. -/
def inPlace (key : α → κ) (a : List α) (x : α) (b : List α) : Bool :=
  (∀ y ∈ a.getLast?, key y ≤ key x) ∧ (∀ y ∈ b.head?, key x ≤ key y)

/-- The first element with `p` is changed by `f`. -/
def modify (key : α → κ) (p : α → Bool) (f : α → α) (l : List α) : List α :=
  match l.dropWhile (! p ·) with
  | [] => l
  | x :: b =>
    let a := l.takeWhile (! p ·)
    if inPlace key a (f x) b then a ++ f x :: b else insert key (f x) (a ++ b)

variable {key : α → κ} {p : α → Bool} {f : α → α} {x : α} {l a b : List α}

theorem sorted_nil : Sorted key [] := List.Pairwise.nil

theorem sorted_insert (h : Sorted key l) : Sorted key (insert key x l) := by
  induction l with
  | nil => exact List.pairwise_singleton _ x
  | cons y l ih =>
    obtain ⟨hy, hl⟩ := List.pairwise_cons.mp h
    unfold insert
    rw [List.orderedInsert_cons]
    split
    · rename_i hxy
      refine List.pairwise_cons.mpr ⟨fun z hz => ?_, h⟩
      rcases List.mem_cons.mp hz with rfl | hz
      · exact le_of_lt hxy
      · exact (le_of_lt hxy).trans (hy z hz)
    · rename_i hxy
      refine List.pairwise_cons.mpr ⟨fun z hz => ?_, ih hl⟩
      rcases (List.mem_orderedInsert _).mp hz with rfl | hz
      · exact not_lt.mp hxy
      · exact hy z hz

theorem perm_insert : (insert key x l).Perm (x :: l) := List.perm_orderedInsert _ x l

theorem modify_eq (key : α → κ) (p : α → Bool) (f : α → α) (l : List α) :
    (∀ x ∈ l, ¬ p x) ∧ modify key p f l = l ∨
      ∃ a x b, l = a ++ x :: b ∧ p x ∧ (∀ y ∈ a, ¬ p y) ∧
        modify key p f l = if inPlace key a (f x) b then a ++ f x :: b else insert key (f x) (a ++ b) := by
  have hsplit := List.takeWhile_append_dropWhile (p := (! p ·)) (l := l)
  have hnot : ∀ y ∈ l.takeWhile (! p ·), ¬ p y := fun y hy => by simpa using List.mem_takeWhile_imp hy
  unfold modify
  cases hd : l.dropWhile (! p ·) with
  | nil =>
    rw [hd, List.append_nil] at hsplit
    exact .inl ⟨hsplit ▸ hnot, rfl⟩
  | cons x b =>
    rw [hd] at hsplit
    have hx := List.head?_dropWhile_not (! p ·) l
    rw [hd] at hx
    exact .inr ⟨_, x, b, hsplit.symm, by simpa using hx, hnot, rfl⟩

theorem perm_changed (key : α → κ) (x : α) (a b : List α) :
    (if inPlace key a x b then a ++ x :: b else insert key x (a ++ b)).Perm (x :: (a ++ b)) := by
  split
  · exact List.perm_middle
  · exact perm_insert

theorem perm_modify (h : (l.filter p).length ≤ 1) :
    (modify key p f l).Perm ((l.filter p).map f ++ l.filter (! p ·)) := by
  rcases modify_eq key p f l with ⟨hn, he⟩ | ⟨a, x, b, rfl, hx, ha, he⟩
  · rw [he, List.filter_eq_nil_iff.mpr hn, List.filter_eq_self.mpr (by simpa using hn)]
    exact List.Perm.refl _
  · rw [List.filter_append, List.filter_eq_nil_iff.mpr ha, List.nil_append, List.filter_cons_of_pos hx,
      List.length_cons] at h
    have hb : b.filter p = [] := List.eq_nil_of_length_eq_zero (by omega)
    have hb' : ∀ y ∈ b, ¬ p y := List.filter_eq_nil_iff.mp hb
    rw [he, List.filter_append, List.filter_append, List.filter_eq_nil_iff.mpr ha, List.filter_cons_of_pos hx, hb,
      List.filter_cons_of_neg (by simpa using hx), List.filter_eq_self.mpr (by simpa using ha),
      List.filter_eq_self.mpr (by simpa using hb')]
    exact perm_changed key (f x) a b

theorem filter_name {ι : Type} [DecidableEq ι] {name : α → ι} (h : (l.map name).Nodup) (hx : x ∈ l) :
    (l.filter fun y => name y = name x) = [x] := by
  induction l with
  | nil => cases hx
  | cons y l ih =>
    obtain ⟨hy, hn⟩ := List.nodup_cons.mp h
    rcases List.mem_cons.mp hx with rfl | hx
    · have hl : (l.filter fun y => name y = name x) = [] := by
        rw [List.filter_eq_nil_iff]
        intro z hz he
        exact hy (of_decide_eq_true he ▸ List.mem_map_of_mem hz)
      rw [List.filter_cons_of_pos (by simp), hl]
    · have hne : name y ≠ name x := fun he => hy (he ▸ List.mem_map_of_mem hx)
      rw [List.filter_cons_of_neg (by simpa using hne), ih hn hx]

theorem perm_insert_name {ι : Type} [DecidableEq ι] {name : α → ι} {k : ι}
    (h : (l.find? fun y => name y = k) = none) : (insert key x l).Perm (x :: l.filter fun y => name y ≠ k) := by
  have hall : (l.filter fun y => name y ≠ k) = l := by
    rw [List.filter_eq_self]
    simpa using List.find?_eq_none.mp h
  rw [hall]
  exact perm_insert

theorem perm_modify_name {ι : Type} [DecidableEq ι] {name : α → ι} (h : (l.map name).Nodup) (hx : x ∈ l) :
    (modify key (fun y => name y = name x) f l).Perm (f x :: l.filter fun y => name y ≠ name x) := by
  have hp : (modify key (fun y => name y = name x) f l).Perm _ :=
    perm_modify (by rw [filter_name h hx, List.length_singleton])
  rw [filter_name h hx] at hp
  simpa using hp

theorem sorted_changed (h : Sorted key (a ++ x :: b)) :
    Sorted key (if inPlace key a (f x) b then a ++ f x :: b else insert key (f x) (a ++ b)) := by
  obtain ⟨ha, hb, hab⟩ := List.pairwise_append.mp h
  obtain ⟨-, hb⟩ := List.pairwise_cons.mp hb
  split
  · rename_i hin
    simp only [inPlace, Bool.decide_and, Bool.and_eq_true, decide_eq_true_eq] at hin
    -- what is before the last of `a` or behind the first of `b` is in order with it
    have hbelow : ∀ y ∈ a, key y ≤ key (f x) := by
      intro y hy
      rcases List.eq_nil_or_concat a with rfl | ⟨a', z, rfl⟩
      · cases hy
      · rw [List.concat_eq_append] at ha hy hin
        have hz : key z ≤ key (f x) := hin.1 z (by simp)
        rcases List.mem_append.mp hy with hy | hy
        · exact ((List.pairwise_append.mp ha).2.2 y hy z (by simp)).trans hz
        · rw [List.mem_singleton.mp hy]
          exact hz
    have habove : ∀ y ∈ b, key (f x) ≤ key y := by
      intro y hy
      cases b with
      | nil => cases hy
      | cons z b =>
        have hz : key (f x) ≤ key z := hin.2 z rfl
        rcases List.mem_cons.mp hy with rfl | hy
        · exact hz
        · exact hz.trans ((List.pairwise_cons.mp hb).1 y hy)
    refine List.pairwise_append.mpr ⟨ha, List.pairwise_cons.mpr ⟨habove, hb⟩, fun y hy z hz => ?_⟩
    rcases List.mem_cons.mp hz with rfl | hz
    · exact hbelow y hy
    · exact hab y hy z (List.mem_cons_of_mem x hz)
  · refine sorted_insert (List.pairwise_append.mpr ⟨ha, hb, fun y hy z hz => ?_⟩)
    exact hab y hy z (List.mem_cons_of_mem x hz)

theorem sorted_modify (h : Sorted key l) : Sorted key (modify key p f l) := by
  rcases modify_eq key p f l with ⟨-, he⟩ | ⟨a, x, b, rfl, -, -, he⟩
  · rwa [he]
  · rw [he]
    exact sorted_changed h

end OrderedIndex
