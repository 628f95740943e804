import GlobalServer.Base.Slist
import GlobalServer.Lib.Runs

/-!
# The singly linked list against mathematical lists

Every list has its nodes, and no node is in two lists. An operation changes
the nodes of the lists that it is given and leaves all others alone.
-/

namespace GlobalServer

open Bytes

variable {α : Type}

namespace Slist

variable {h h' : Nodes α} {l l' other other' : Slist} {nodes others : List Nat} {xs ys : List α} {a p : Nat}
  {node : Node α}

theorem next_eq (ha : h.cell a = some node) : next h a = some node.next := by
  rw [next, ha, Option.map_some]

theorem val_eq (ha : h.cell a = some node) : val h a = some node.val := by
  rw [val, ha, Option.map_some]

theorem val_relink (ha : h.cell a = some node) (q : Option Nat) (b : Nat) :
    val (h.put a { node with next := q }) b = val h b := by
  rcases eq_or_ne b a with rfl | hne
  · rw [val_eq ha, val_eq Heap.put_self]
  · rw [val, val, Heap.put_of_ne hne]

namespace Holds

theorem congr (hl : Holds h l nodes xs) (hc : ∀ a ∈ nodes, h'.cell a = h.cell a) : Holds h' l nodes xs where
  chain := hl.chain.congr fun a ha => by rw [next, next, hc a ha]
  vals := by
    rw [← hl.vals]
    exact List.map_congr_left fun a ha => by rw [val, val, hc a ha]
  tail := hl.tail
  size := hl.size

theorem length_eq (hl : Holds h l nodes xs) : nodes.length = xs.length := by
  simpa using congrArg List.length hl.vals

theorem nil_iff (hl : Holds h l nodes xs) : nodes = [] ↔ xs = [] := by
  rw [← List.length_eq_zero_iff, ← List.length_eq_zero_iff, hl.length_eq]

theorem head_iff (hl : Holds h l nodes xs) : l.head = none ↔ nodes = [] := hl.chain.eq_nil_iff.symm

theorem cell (hl : Holds h l nodes xs) (ha : a ∈ nodes) : ∃ node, h.cell a = some node := by
  have hn := hl.chain.isSome ha
  unfold next at hn
  cases hc : h.cell a with
  | none => simp [hc] at hn
  | some node => exact ⟨node, rfl⟩

theorem ne_of_free (hl : Holds h l nodes xs) (hp : h.cell p = none) : p ∉ nodes := by
  intro hm
  obtain ⟨node, hc⟩ := hl.cell hm
  rw [hp] at hc
  cases hc

theorem last (hl : Holds h l (nodes ++ [a]) xs) : l.tail = some a := by
  rw [hl.tail, List.getLast?_concat]

theorem init : Holds h Slist.init [] ([] : List α) := ⟨rfl, rfl, rfl, rfl⟩

/-! ## One list -/

theorem push_back (hl : Holds h l nodes xs) (hs : l.size + 1 < 2 ^ 31) (t : α) (at' : Nat) :
    ∃ h' l' p, l.push_back h t at' = some (h', l') ∧ Holds h' l' (nodes ++ [p]) (xs ++ [t]) ∧ h.cell p = none ∧
      ∀ a, a ∉ nodes → a ≠ p → h'.cell a = h.cell a := by
  have hp := h.cell_place at'
  have hnotin := hl.ne_of_free hp
  have hsize := hl.size
  have hcount : i32 (l.count + 1) = (nodes ++ [h.place at']).length := by
    unfold Slist.size at hs hsize
    rw [List.length_append, List.length_singleton, i32_of_range] <;> omega
  rcases List.eq_nil_or_concat nodes with rfl | ⟨front, a, rfl⟩
  · have htail : l.tail = none := hl.tail
    have hhead : l.head = none := hl.chain
    have hxs := hl.nil_iff.mp rfl
    refine ⟨h.put (h.place at') ⟨t, none⟩, ⟨i32 (l.count + 1), some (h.place at'), some (h.place at'), i32_lt _⟩,
      h.place at', ?_, ⟨?_, ?_, rfl, hcount⟩, hp, fun a _ hne => Heap.put_of_ne hne⟩
    · rw [Slist.push_back, htail, hhead]
      rfl
    · exact ⟨rfl, none, next_eq Heap.put_self, rfl⟩
    · rw [hxs]
      simp [val_eq Heap.put_self]
  · rw [List.concat_eq_append] at hl hnotin hcount ⊢
    obtain ⟨node, hnode⟩ := hl.cell (a := a) (by simp)
    have hne : a ≠ h.place at' := fun he => hnotin (by simp [← he])
    have hnd := hl.chain.nodup
    have hcell : (h.put (h.place at') { val := t, next := none }).cell a = some node := by
      rw [Heap.put_of_ne hne, hnode]
    have hmod := Heap.modify_of_cell (f := fun node => { node with next := some (h.place at') }) hcell
    have hold : ∀ b ∈ front, b ≠ a ∧ b ≠ h.place at' := fun b hb =>
      ⟨fun he => (List.nodup_append.mp hnd).2.2 b hb a (by simp) he, fun he => hnotin (by simp [← he, hb])⟩
    have hhead : l.head ≠ none := by
      rw [Ne, hl.head_iff]
      simp
    refine ⟨(h.put (h.place at') ⟨t, none⟩).put a ⟨node.val, some (h.place at')⟩,
      ⟨i32 (l.count + 1), l.head, some (h.place at'), i32_lt _⟩, h.place at', ?_, ⟨?_, ?_, ?_, hcount⟩, hp,
      fun b hb hne' => ?_⟩
    · rw [Slist.push_back, hl.last]
      simp only [hmod, Option.map_some, Option.isNone_iff_eq_none, hhead, if_false]
    · rw [List.append_assoc]
      refine hl.chain.append (next_eq Heap.put_self) (fun b hb => ?_) ⟨rfl, none, ?_, rfl⟩
      · rw [next, next, Heap.put_of_ne (hold b hb).1, Heap.put_of_ne (hold b hb).2]
      · rw [next, Heap.put_of_ne hne.symm, Heap.put_self]
        rfl
    · have hsame : ∀ b ∈ front ++ [a], val (h.put (h.place at') { val := t, next := none }) b = val h b := by
        intro b hb
        have hbp : b ≠ h.place at' := fun he => hnotin (he ▸ hb)
        rw [val, val, Heap.put_of_ne hbp]
      rw [List.map_congr_left fun b _ => val_relink hcell (some (h.place at')) b, List.map_append,
        List.map_congr_left hsame, hl.vals, List.map_append]
      simp [val_eq Heap.put_self]
    · simp
    · have hba : b ≠ a := fun he => hb (by simp [he])
      rw [Heap.put_of_ne hba, Heap.put_of_ne hne']

theorem pop_front (hl : Holds h l nodes xs) :
    ∃ h' l', l.pop_front h = some (h', l') ∧ Holds h' l' nodes.tail xs.tail ∧
      ∀ a, a ∉ nodes → h'.cell a = h.cell a := by
  cases nodes with
  | nil =>
    have hhead : l.head = none := hl.chain
    have hxs := hl.nil_iff.mp rfl
    refine ⟨h, l, by rw [Slist.pop_front, hhead], ?_, fun a _ => rfl⟩
    rw [hxs] at hl ⊢
    exact hl
  | cons a nodes =>
    obtain ⟨node, hnode⟩ := hl.cell (a := a) (by simp)
    obtain ⟨h', hfree, -, hother⟩ := Heap.free_of_cell hnode
    obtain ⟨hhead, q, hq, hrest⟩ := hl.chain
    have hnd := List.nodup_cons.mp hl.chain.nodup
    rw [next_eq hnode, Option.some.injEq] at hq
    subst hq
    have hsame : ∀ b ∈ nodes, h'.cell b = h.cell b := fun b hb => hother b fun he => hnd.1 (he ▸ hb)
    refine ⟨h', _, by rw [Slist.pop_front, hhead]; simp only [hnode, hfree, Option.bind_eq_bind, Option.bind_some]; rfl,
      ⟨?_, ?_, ?_, ?_⟩, fun b hb => hother b fun he => hb (by simp [he])⟩
    · exact hrest.congr fun b hb => by rw [next, next, hsame b hb]
    · have hvals := hl.vals
      rw [List.map_cons, val_eq hnode] at hvals
      cases xs with
      | nil => cases hvals
      | cons x xs =>
        rw [List.map_cons, List.cons.injEq] at hvals
        show nodes.map (val h') = _
        rw [List.tail_cons, ← hvals.2]
        exact List.map_congr_left fun b hb => by rw [val, val, hsame b hb]
    · show (if some a = l.tail then node.next else l.tail) = _
      rw [hl.tail]
      cases nodes with
      | nil => simpa using hrest
      | cons b nodes =>
        rw [List.getLast?_cons_cons]
        refine if_neg fun he => hnd.1 ?_
        exact List.mem_of_getLast? he.symm
    · have hsize := hl.size
      have hlt := l.count_lt
      unfold Slist.size at hsize ⊢
      simp only [List.length_cons, List.tail_cons] at hsize ⊢
      rw [i32_of_range] <;> omega

theorem clear (hl : Holds h l nodes xs) (hn : l.head = none) :
    ∃ l', l.clear h = some (h, l') ∧ Holds h l' [] ([] : List α) := by
  obtain rfl := hl.head_iff.mp hn
  have hfree : ∀ n, freeFrom n h none = some h := fun n => by cases n <;> rfl
  exact ⟨⟨0, none, l.tail, by decide⟩, by rw [Slist.clear, hn, hfree]; rfl, rfl, rfl, hl.tail, rfl⟩

theorem tail_of_clear (hc : l.clear h = some (h', l')) : l'.tail = l.tail := by
  obtain ⟨h₁, -, he⟩ := Option.map_eq_some_iff.mp hc
  cases he
  rfl

/-! ## Two lists -/

theorem join (hl : Holds h l nodes xs) (ho : Holds h other others ys) (hd : nodes.Disjoint others)
    (hne : other.head = none → l.head = none) (hs : l.size + other.size < 2 ^ 31) :
    ∃ h' l' other', l.join h other = some (h', l', other') ∧ Holds h' l' (nodes ++ others) (xs ++ ys) ∧
      Holds h' other' [] ([] : List α) ∧ ∀ a, a ∉ nodes → h'.cell a = h.cell a := by
  have hcount : i32 (l.count + other.count) = (nodes ++ others).length := by
    have h1 := hl.size
    have h2 := ho.size
    unfold Slist.size at h1 h2 hs
    rw [List.length_append, i32_of_range] <;> omega
  rcases List.eq_nil_or_concat nodes with rfl | ⟨front, a, rfl⟩
  · have htail : l.tail = none := hl.tail
    have hxs := hl.nil_iff.mp rfl
    refine ⟨h, ⟨i32 (l.count + other.count), other.head, other.tail, i32_lt _⟩, Slist.init, ?_,
      ⟨ho.chain, ?_, ho.tail, hcount⟩, init, fun a _ => rfl⟩
    · rw [Slist.join, htail]
      rfl
    · rw [hxs]
      exact ho.vals
  · rw [List.concat_eq_append] at hl hd hcount ⊢
    obtain ⟨node, hnode⟩ := hl.cell (a := a) (by simp)
    have hnd := hl.chain.nodup
    have hmod := Heap.modify_of_cell (f := fun node => { node with next := other.head }) hnode
    have hfront : ∀ b ∈ front, b ≠ a := fun b hb he => (List.nodup_append.mp hnd).2.2 b hb a (by simp) he
    have hothers : ∀ b ∈ others, b ≠ a := fun b hb he => hd (a := a) (by simp) (he ▸ hb)
    refine ⟨h.put a ⟨node.val, other.head⟩, ⟨i32 (l.count + other.count), l.head, other.tail, i32_lt _⟩, Slist.init, ?_,
      ⟨?_, ?_, ?_, hcount⟩, init, fun b hb => ?_⟩
    · rw [Slist.join, hl.last]
      simp only [hmod, Option.map_some]
      rfl
    · rw [List.append_assoc]
      refine hl.chain.append (next_eq Heap.put_self) (fun b hb => ?_) (ho.chain.congr fun b hb => ?_)
      · rw [next, next, Heap.put_of_ne (hfront b hb)]
      · rw [next, next, Heap.put_of_ne (hothers b hb)]
    · rw [List.map_congr_left fun b _ => val_relink hnode other.head b, List.map_append, hl.vals, ho.vals,
        List.map_append]
    · have hnil : others ≠ [] := fun he => by
        have := hl.head_iff.mp (hne (ho.head_iff.mpr he))
        simp at this
      show other.tail = _
      rw [ho.tail, List.getLast?_append_of_ne_nil _ hnil]
    · exact Heap.put_of_ne fun he => hb (by simp [he])

theorem of_join {r : Slist × Slist} (hj : l.join h other = some (h', r)) :
    r.1.size = i32 (l.size + other.size) ∧ r.1.tail = other.tail := by
  unfold Slist.join at hj
  split at hj
  · obtain ⟨h₁, -, he⟩ := Option.map_eq_some_iff.mp hj
    cases he
    exact ⟨rfl, rfl⟩
  · cases hj
    exact ⟨rfl, rfl⟩

theorem of_push_back {t : α} {at' : Nat} (hp : l.push_back h t at' = some (h', l')) : l'.size = i32 (l.size + 1) := by
  unfold Slist.push_back at hp
  dsimp only at hp
  split at hp
  · obtain ⟨h₁, -, he⟩ := Option.map_eq_some_iff.mp hp
    cases he
    rfl
  · cases hp
    rfl

end Holds

/-! ## All lists -/

/-- The list `i` has the nodes `nodes i` and holds `xs i`. -/
structure Sound (xs : Nat → List α) (s : State α) (nodes : Nat → List Nat) : Prop where
  holds : ∀ i, Holds s.nodes (s.list i) (nodes i) (xs i)
  apart : ∀ i j, i ≠ j → (nodes i).Disjoint (nodes j)

theorem sound_start : Sound (fun _ => []) (State.start : State α) (fun _ => []) :=
  ⟨fun _ => .init, fun _ _ _ => List.disjoint_nil_left _⟩

namespace Sound

variable {xs xs' : Nat → List α} {s s' : State α} {nodes nodes' : Nat → List Nat} {i j : Nat}

theorem frame (hs : Sound xs s nodes) (T : Nat → Prop)
    (hin : ∀ k, T k → Holds s'.nodes (s'.list k) (nodes' k) (xs' k))
    (hout : ∀ k, ¬ T k → s'.list k = s.list k ∧ nodes' k = nodes k ∧ xs' k = xs k)
    (hnew : ∀ k, T k → ∀ a ∈ nodes' k, (∃ i, T i ∧ a ∈ nodes i) ∨ s.nodes.cell a = none)
    (hpair : ∀ i j, T i → T j → i ≠ j → (nodes' i).Disjoint (nodes' j))
    (hcell : ∀ a, (∀ i, T i → a ∉ nodes i) → s.nodes.cell a ≠ none → s'.nodes.cell a = s.nodes.cell a) :
    Sound xs' s' nodes' := by
  have hfar : ∀ k, ¬ T k → ∀ a ∈ nodes k, (∀ i, T i → a ∉ nodes i) ∧ s.nodes.cell a ≠ none := by
    intro k hk a ha
    refine ⟨fun i hi hm => hs.apart i k (fun he => hk (he ▸ hi)) hm ha, fun hn => ?_⟩
    exact (hs.holds k).ne_of_free hn ha
  have hmixed : ∀ i j, T i → ¬ T j → (nodes' i).Disjoint (nodes' j) := by
    intro i j hi hj a ha hb
    rw [(hout j hj).2.1] at hb
    obtain ⟨hnone, hsome⟩ := hfar j hj a hb
    rcases hnew i hi a ha with ⟨k, hk, hm⟩ | hfree
    · exact hnone k hk hm
    · exact hsome hfree
  refine ⟨fun k => ?_, fun i j hne => ?_⟩
  · by_cases hk : T k
    · exact hin k hk
    · obtain ⟨h1, h2, h3⟩ := hout k hk
      rw [h1, h2, h3]
      exact (hs.holds k).congr fun a ha => hcell a (hfar k hk a ha).1 (hfar k hk a ha).2
  · by_cases hi : T i <;> by_cases hj : T j
    · exact hpair i j hi hj hne
    · exact hmixed i j hi hj
    · exact fun a ha hb => hmixed j i hj hi hb ha
    · rw [(hout i hi).2.1, (hout j hj).2.1]
      exact hs.apart i j hne

theorem put (hs : Sound xs s nodes) {r : Nodes α × Slist} {new : List Nat} {ys : List α}
    (hl : Holds r.1 r.2 new ys) (hnew : ∀ a ∈ new, a ∈ nodes i ∨ s.nodes.cell a = none)
    (hcell : ∀ a, a ∉ nodes i → s.nodes.cell a ≠ none → r.1.cell a = s.nodes.cell a) :
    Sound (Function.update xs i ys) (s.put i r) (Function.update nodes i new) := by
  apply hs.frame (· = i)
  · intro k hk
    subst hk
    simpa [State.put] using hl
  · intro k hk
    simp [State.put, Function.update_of_ne hk]
  · intro k hk a ha
    subst hk
    rw [Function.update_self] at ha
    exact (hnew a ha).imp (fun h => ⟨k, rfl, h⟩) id
  · intro k k' hk hk' hne
    exact absurd (hk.trans hk'.symm) hne
  · intro a ha
    exact hcell a (ha i rfl)

theorem push_back (hs : Sound xs s nodes) (hlt : (s.list i).size + 1 < 2 ^ 31) (t : α) (at' : Nat) :
    ∃ s' nodes', s.step (.push_back i t at') = some s' ∧ Sound (apply xs (.push_back i t at')) s' nodes' := by
  obtain ⟨h', l', p, hp, hl, hfree, hcell⟩ := (hs.holds i).push_back hlt t at'
  refine ⟨_, _, by rw [State.step, hp]; rfl, hs.put hl (fun a ha => ?_) fun a ha hsome => ?_⟩
  · rcases List.mem_append.mp ha with ha | ha
    · exact .inl ha
    · rw [List.mem_singleton.mp ha]
      exact .inr hfree
  · exact hcell a ha fun he => hsome (he ▸ hfree)

theorem pop_front (hs : Sound xs s nodes) (i : Nat) :
    ∃ s' nodes', s.step (.pop_front i) = some s' ∧ Sound (apply xs (.pop_front i)) s' nodes' := by
  obtain ⟨h', l', hp, hl, hcell⟩ := (hs.holds i).pop_front
  refine ⟨_, _, by rw [State.step, hp]; rfl, hs.put hl (fun a ha => .inl (List.mem_of_mem_tail ha)) fun a ha _ => ?_⟩
  exact hcell a ha

theorem clear (hs : Sound xs s nodes) (hn : (s.list i).head = none) :
    ∃ s' nodes', s.step (.clear i) = some s' ∧ Sound (apply xs (.clear i)) s' nodes' := by
  obtain ⟨l', hc, hl⟩ := (hs.holds i).clear hn
  exact ⟨_, _, by rw [State.step, hc]; rfl, hs.put hl (by simp) fun a _ _ => rfl⟩

theorem join (hs : Sound xs s nodes) (hne : i ≠ j) (hnull : (s.list j).head = none → (s.list i).head = none)
    (hlt : (s.list i).size + (s.list j).size < 2 ^ 31) :
    ∃ s' nodes', s.step (.join i j) = some s' ∧ Sound (apply xs (.join i j)) s' nodes' := by
  obtain ⟨h', l', other', hj, hl, ho, hcell⟩ := (hs.holds i).join (hs.holds j) (hs.apart i j hne) hnull hlt
  refine ⟨_, Function.update (Function.update nodes i (nodes i ++ nodes j)) j [],
    by rw [State.step, if_neg hne, hj]; rfl, ?_⟩
  rw [apply, if_neg hne]
  apply hs.frame fun k => k = i ∨ k = j
  · rintro k (rfl | rfl)
    · simpa [Function.update_of_ne hne] using hl
    · simpa using ho
  · intro k hk
    obtain ⟨hi, hj⟩ := not_or.mp hk
    simp [Function.update_of_ne hi, Function.update_of_ne hj]
  · rintro k (rfl | rfl) a ha
    · rw [Function.update_of_ne hne, Function.update_self] at ha
      refine .inl ((List.mem_append.mp ha).elim (fun h => ⟨k, .inl rfl, h⟩) fun h => ⟨j, .inr rfl, h⟩)
    · simp at ha
  · rintro k k' (rfl | rfl) (rfl | rfl) hkk <;> simp at hkk ⊢
  · intro a ha _
    exact hcell a (ha i (.inl rfl))

theorem swap (hs : Sound xs s nodes) (i j : Nat) :
    ∃ s' nodes', s.step (.swap i j) = some s' ∧ Sound (apply xs (.swap i j)) s' nodes' := by
  by_cases hij : i = j
  · refine ⟨s, nodes, by rw [State.step, if_pos hij], ?_⟩
    rw [apply, if_pos hij]
    exact hs
  · refine ⟨_, Function.update (Function.update nodes j (nodes i)) i (nodes j), by rw [State.step, if_neg hij], ?_⟩
    have hji : j ≠ i := fun he => hij he.symm
    rw [apply, if_neg hij]
    apply hs.frame fun k => k = i ∨ k = j
    · rintro k (rfl | rfl)
      · simpa using hs.holds j
      · simpa [Function.update_of_ne hji] using hs.holds i
    · intro k hk
      obtain ⟨hi, hj⟩ := not_or.mp hk
      simp [Function.update_of_ne hi, Function.update_of_ne hj]
    · rintro k (rfl | rfl) a ha
      · exact .inl ⟨j, .inr rfl, by simpa using ha⟩
      · exact .inl ⟨i, .inl rfl, by simpa [Function.update_of_ne hji] using ha⟩
    · rintro k k' (rfl | rfl) (rfl | rfl) hkk
      · exact absurd rfl hkk
      · simpa [Function.update_of_ne hji] using hs.apart _ _ hji
      · simpa [Function.update_of_ne hji] using hs.apart _ _ hij
      · exact absurd rfl hkk
    · exact fun a _ _ => rfl

end Sound

/-! ## Runs -/

/-- An operation on mathematical lists and on the lists of the code. -/
def both (r : (Nat → List α) × State α) (op : Op α) : Option ((Nat → List α) × State α) :=
  (r.2.step op).map fun s => (apply r.1 op, s)

def run (ops : List (Op α)) : Option ((Nat → List α) × State α) :=
  ops.foldl (fun r op => r.bind fun r => both r op) (some (fun _ => [], State.start))

/-- Each list holds what the mathematical one does. -/
def Refines (r : Option ((Nat → List α) × State α)) : Prop :=
  ∃ xs s, r = some (xs, s) ∧ ∀ i, ∃ nodes, Holds s.nodes (s.list i) nodes (xs i)

/-- Only empty lists are cleared, an empty list is joined only to an empty one, and sizes are `int`s. -/
def Safe (s : State α) : Op α → Prop
  | .push_back i _ _ => (s.list i).size + 1 < 2 ^ 31
  | .pop_front _ => True
  | .clear i => (s.list i).head = none
  | .join i j => i ≠ j →
      ((s.list j).head = none → (s.list i).head = none) ∧ (s.list i).size + (s.list j).size < 2 ^ 31
  | .swap _ _ => True

theorem Refines.holds {xs : Nat → List α} {s : State α} {op : Op α} (h : Refines (both (xs, s) op)) :
    ∃ s', s.step op = some s' ∧ ∀ i, ∃ nodes, Holds s'.nodes (s'.list i) nodes (apply xs op i) := by
  obtain ⟨xs', s', he, hall⟩ := h
  obtain ⟨s₁, hst, he⟩ := Option.map_eq_some_iff.mp he
  cases he
  exact ⟨s', hst, hall⟩

namespace Sound

variable {xs : Nat → List α} {s s' : State α} {nodes : Nat → List Nat} {i j : Nat}

theorem size_eq (hs : Sound xs s nodes) (i : Nat) : (s.list i).size = (xs i).length := by
  rw [(hs.holds i).size, (hs.holds i).length_eq]

theorem not_refines_push_back (hs : Sound xs s nodes) {t : α} {at' : Nat} (hlt : ¬ (s.list i).size + 1 < 2 ^ 31) :
    ¬ Refines (both (xs, s) (.push_back i t at')) := by
  intro hr
  obtain ⟨s', hst, hall⟩ := hr.holds
  obtain ⟨⟨h', l'⟩, hp, rfl⟩ := Option.map_eq_some_iff.mp hst
  obtain ⟨new, hnew⟩ := hall i
  simp only [State.put, Function.update_self, apply] at hnew
  have hsize := hnew.size
  have hold := hs.size_eq i
  have hbound := i32_lt ((s.list i).size + 1)
  rw [hnew.length_eq, Holds.of_push_back hp, List.length_append, List.length_singleton] at hsize
  omega

theorem not_refines_clear (hs : Sound xs s nodes) (hn : (s.list i).head ≠ none) :
    ¬ Refines (both (xs, s) (.clear i)) := by
  intro hr
  obtain ⟨s', hst, hall⟩ := hr.holds
  obtain ⟨⟨h', l'⟩, hc, rfl⟩ := Option.map_eq_some_iff.mp hst
  obtain ⟨new, hnew⟩ := hall i
  simp only [State.put, Function.update_self, apply] at hnew
  have htail := hnew.tail
  rw [hnew.nil_iff.mpr rfl, Holds.tail_of_clear hc, (hs.holds i).tail, List.getLast?_nil,
    List.getLast?_eq_none_iff] at htail
  exact hn ((hs.holds i).head_iff.mpr htail)

theorem not_refines_join (hs : Sound xs s nodes) (hne : i ≠ j)
    (hm : ¬ (((s.list j).head = none → (s.list i).head = none) ∧ (s.list i).size + (s.list j).size < 2 ^ 31)) :
    ¬ Refines (both (xs, s) (.join i j)) := by
  intro hr
  obtain ⟨s', hst, hall⟩ := hr.holds
  rw [State.step, if_neg hne] at hst
  obtain ⟨⟨h', l', other'⟩, hj, rfl⟩ := Option.map_eq_some_iff.mp hst
  obtain ⟨new, hnew⟩ := hall i
  rw [apply, if_neg hne] at hnew
  simp only [Function.update_of_ne hne, Function.update_self] at hnew
  obtain ⟨hsize, htail⟩ := Holds.of_join hj
  refine hm ⟨fun hnull => ?_, ?_⟩
  · have hothers := (hs.holds j).head_iff.mp hnull
    have hlast := hnew.tail
    rw [htail, (hs.holds j).tail, hothers, List.getLast?_nil] at hlast
    have hnil := hnew.nil_iff.mp (List.getLast?_eq_none_iff.mp hlast.symm)
    exact (hs.holds i).head_iff.mpr ((hs.holds i).nil_iff.mpr (List.append_eq_nil_iff.mp hnil).1)
  · have hlen := hnew.size
    have hi := hs.size_eq i
    have hj := hs.size_eq j
    have hbound := i32_lt ((s.list i).size + (s.list j).size)
    rw [hnew.length_eq, hsize, List.length_append] at hlen
    omega

end Sound

theorem step_cases {xs : Nat → List α} {s : State α} {nodes : Nat → List Nat} (hs : Sound xs s nodes) (op : Op α) :
    (Safe s op ∧ ∃ r, both (xs, s) op = some r ∧ ∃ nodes, Sound r.1 r.2 nodes) ∨
      ¬ Safe s op ∧ ¬ Refines (both (xs, s) op) := by
  have good : (∃ s' nodes', s.step op = some s' ∧ Sound (apply xs op) s' nodes') →
      ∃ r, both (xs, s) op = some r ∧ ∃ nodes, Sound r.1 r.2 nodes := fun ⟨s', nodes', hst, hs'⟩ =>
    ⟨(apply xs op, s'), by rw [both, hst]; rfl, nodes', hs'⟩
  by_cases hsafe : Safe s op
  · refine .inl ⟨hsafe, good ?_⟩
    cases op with
    | push_back i t at' => exact hs.push_back hsafe t at'
    | pop_front i => exact hs.pop_front i
    | clear i => exact hs.clear hsafe
    | join i j =>
      by_cases hij : i = j
      · refine ⟨s, nodes, by rw [State.step, if_pos hij], ?_⟩
        rw [apply, if_pos hij]
        exact hs
      · exact hs.join hij (hsafe hij).1 (hsafe hij).2
    | swap i j => exact hs.swap i j
  · refine .inr ⟨hsafe, ?_⟩
    cases op with
    | push_back i t at' => exact hs.not_refines_push_back hsafe
    | pop_front i => exact absurd trivial hsafe
    | clear i => exact hs.not_refines_clear hsafe
    | join i j =>
      obtain ⟨hij, hm⟩ := Classical.not_imp.mp hsafe
      exact hs.not_refines_join hij hm
    | swap i j => exact absurd trivial hsafe

/-- After every operation of a run the lists are what they should be exactly when all its operations are safe. -/
theorem refines_iff (ops : List (Op α)) :
    (∀ t op, t ++ [op] <+: ops → Refines (run (t ++ [op]))) ↔
      ∀ t op, t ++ [op] <+: ops → ∀ r, run t = some r → Safe r.2 op := by
  apply Runs.good_foldl_iff (I := fun r : (Nat → List α) × State α => ∃ nodes, Sound r.1 r.2 nodes)
    (M := fun r op => Safe r.2 op)
  · exact ⟨_, sound_start⟩
  · intro r h
    obtain ⟨nodes, hs⟩ := h
    exact ⟨r.1, r.2, rfl, fun i => ⟨nodes i, hs.holds i⟩⟩
  · intro r op h
    obtain ⟨nodes, hs⟩ := h
    exact step_cases hs op

/-- After `clear` the tail is the node that has been freed, and the next `push_back` writes to it. An empty list that is
joined makes the tail null, and the next `push_back` is not linked to the nodes before. -/
theorem stale_tails :
    ((run [.push_back 0 7 0, .clear 0]).map fun r => (r.2.list 0).tail) = some (some 0) ∧
      ¬ Refines (run [.push_back 0 7 0, .clear 0]) ∧
      (run [.push_back 0 7 0, .clear 0, .push_back 0 8 1]).isNone ∧
      ((run [.push_back 0 7 0, .join 0 1, .push_back 0 8 1]).map fun r =>
        ((r.2.list 0).head, (r.2.list 0).size, next r.2.nodes 0)) = some (some 0, 2, some none) := by
  refine ⟨by decide, fun hr => ?_, by decide, by decide⟩
  obtain ⟨xs, s, he, hall⟩ := hr
  have hobs : (run [.push_back 0 7 0, .clear 0]).map (fun r => ((r.2.list 0).head, (r.2.list 0).tail)) =
      some (none, some 0) := by decide
  rw [he, Option.map_some, Option.some.injEq, Prod.mk.injEq] at hobs
  obtain ⟨new, hnew⟩ := hall 0
  have htail := hnew.tail
  rw [hnew.head_iff.mp hobs.1, hobs.2] at htail
  cases htail

end Slist

end GlobalServer
