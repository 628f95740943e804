import GlobalServer.Base.CircularQueue
import GlobalServer.Lib.Runs

/-!
# The circular queue against a bounded list

The element `j` of the list is in the slot `j` steps after the head, and all
other slots are raw. The tail is the slot behind the last element, which is
never the head again: a full queue has one free slot left.
-/

namespace GlobalServer

open Bytes Ring

variable {α : Type}

namespace CircularQueue

theorem BoundedList.pop_front_of_nil {b : BoundedList α} (h : b.items = []) : b.pop_front = b := by
  cases b
  subst h
  rfl

theorem BoundedList.pop_back_of_nil {b : BoundedList α} (h : b.items = []) : b.pop_back = b := by
  cases b
  subst h
  rfl

theorem BoundedList.empty_of_nil {b : BoundedList α} (h : b.items = []) : .empty b.capacity = b := by
  cases b
  subst h
  rfl

/-- The queue has the elements of the list, in their order. -/
structure Agrees (q : CircularQueue α) (items : List α) : Prop where
  tail : q.tail = cell q.cap q.head items.length
  element : ∀ j < items.length, q.read (cell q.cap q.head j) = items[j]?

structure Holds (q : CircularQueue α) (b : BoundedList α) : Prop extends Agrees q b.items where
  cap : q.cap = b.capacity + 1
  head_lt : q.head < q.cap
  tail_le : q.tail ≤ q.slots
  room : q.cap + q.slots < 2 ^ 64
  raw : ∀ i, q.element i ≠ none → ∃ j < b.items.length, i = cell q.cap q.head j

variable {q q' : CircularQueue α} {b b' : BoundedList α} {T : ElementType}

theorem read_eq_some {i : Nat} {t : α} : q.read i = some t ↔ i < q.slots ∧ q.element i = some t := by
  unfold read
  split <;> simp [*]

theorem read_congr {i : Nat} (hs : q'.slots = q.slots) (he : q'.element i = q.element i) : q'.read i = q.read i := by
  rw [read, read, hs, he]

theorem read_of_tail {k i : Nat} : read { q with tail := k } i = q.read i := rfl

/-- However many bytes are asked for, the block's slots are few enough for the arithmetic of `size`. -/
theorem slotsFor_room {cap : Nat} (hcap : cap < 2 ^ 64) (given : Bool) : cap + slotsFor T cap given < 2 ^ 64 := by
  unfold slotsFor
  split
  · rename_i h
    have hpos := T.size_pos
    have hbytes := h.2
    have hdiv : T.size * cap = 2 ^ 64 * (T.size * cap / 2 ^ 64) + u64 (T.size * cap) := (Nat.div_add_mod ..).symm
    have hslots : T.size * (u64 (T.size * cap) / T.size) ≤ u64 (T.size * cap) := Nat.mul_div_le ..
    have hq : T.size * cap / 2 ^ 64 < T.size := by
      apply Nat.div_lt_of_lt_mul
      rw [Nat.mul_comm]
      exact Nat.mul_lt_mul_of_pos_right hcap hpos
    have hsum : T.size * (cap + u64 (T.size * cap) / T.size) < T.size * 2 ^ 64 := by
      rw [Nat.mul_add]
      omega
    exact Nat.lt_of_mul_lt_mul_left hsum
  · exact hcap

namespace Holds

theorem length_lt (h : Holds q b) : b.items.length < q.cap := by
  have := b.length_le
  have := h.cap
  omega

theorem cap_lt (h : Holds q b) : q.cap < 2 ^ 64 := Nat.lt_of_le_of_lt (Nat.le_add_right ..) h.room

theorem wrap_eq (h : Holds q b) {n : Nat} (hn : n < 2 ^ 64) : q.wrap n = some (n % q.cap) := by
  have hpos : q.cap ≠ 0 := Nat.ne_of_gt (Nat.zero_lt_of_lt h.head_lt)
  rw [wrap, if_neg hpos, u64_of_lt hn]

theorem size_eq (h : Holds q b) : q.size = some b.items.length := by
  have hhead := h.head_lt
  have htail := h.tail_le
  have hroom := h.room
  have hsum : q.cap - q.head + q.tail < 2 ^ 64 := by omega
  rw [size, sub64_of_le h.cap_lt (by omega), h.wrap_eq hsum, h.tail, cell_distance hhead h.length_lt]

theorem full_eq (h : Holds q b) : q.full = some (decide (b.items.length = b.capacity)) := by
  have hcap := h.cap
  rw [full, h.size_eq, sub64_of_le h.cap_lt (by omega), hcap, Nat.add_sub_cancel]
  rfl

theorem empty_iff (h : Holds q b) : q.head = q.tail ↔ b.items = [] := by
  have h0 : q.head = cell q.cap q.head 0 := (cell_zero h.head_lt).symm
  rw [h.tail, ← List.length_eq_zero_iff]
  constructor
  · intro he
    exact ((cell_inj (Nat.zero_lt_of_lt h.head_lt) h.length_lt).mp (h0.symm.trans he)).symm
  · intro he
    rw [he]
    exact h0

theorem element_tail (h : Holds q b) : q.element q.tail = none := by
  by_contra hn
  obtain ⟨j, hj, he⟩ := h.raw _ hn
  rw [h.tail] at he
  have hlt := h.length_lt
  have := (cell_inj hlt (by omega)).mp he
  omega

theorem push_back (h : Holds q b) (t : α)
    (hok : b.items.length < b.capacity → q.tail < q.slots ∧ T.assignsRaw = true) :
    ∃ q', q.push_back T t = some (q', (b.push_back t).2) ∧ Holds q' (b.push_back t).1 := by
  unfold CircularQueue.push_back BoundedList.push_back
  rw [h.full_eq]
  by_cases hlt : b.items.length < b.capacity
  · obtain ⟨hslot, hraw⟩ := hok hlt
    have hcap := h.cap
    have hroom := h.room
    have hfull : decide (b.items.length = b.capacity) = false := decide_eq_false (by omega)
    have hassign : q.assign T q.tail t = some { q with element := Function.update q.element q.tail (some t) } :=
      if_pos ⟨hslot, .inr hraw⟩
    have hwrap : ({ q with element := Function.update q.element q.tail (some t) } : CircularQueue α).wrap (q.tail + 1) =
        some ((q.tail + 1) % q.cap) := h.wrap_eq (by omega)
    have hnext : (q.tail + 1) % q.cap = cell q.cap q.head (b.items.length + 1) := by
      rw [h.tail, cell_succ]
    have hold : ∀ j < b.items.length, cell q.cap q.head j ≠ q.tail := fun j hj he => by
      rw [h.tail] at he
      have := (cell_inj (by omega) h.length_lt).mp he
      omega
    rw [dif_pos hlt]
    refine ⟨{ q with element := Function.update q.element q.tail (some t), tail := (q.tail + 1) % q.cap }, ?_,
      ⟨?_, fun j hj => ?_⟩, hcap, h.head_lt, ?_, hroom, fun i hi => ?_⟩
    · simp only [Option.bind_eq_bind, Option.bind_some, hfull, hassign, hwrap, Bool.false_eq_true, if_false]
    · show (q.tail + 1) % q.cap = cell q.cap q.head (b.items ++ [t]).length
      rw [hnext, List.length_append, List.length_singleton]
    · show read _ (cell q.cap q.head j) = (b.items ++ [t])[j]?
      replace hj : j < (b.items ++ [t]).length := hj
      rw [List.length_append, List.length_singleton] at hj
      rcases Nat.lt_or_eq_of_le (Nat.le_of_lt_succ hj) with hj | rfl
      · rw [List.getElem?_append_left hj, ← h.element j hj]
        exact read_congr rfl (Function.update_of_ne (hold j hj) ..)
      · rw [← h.tail, List.getElem?_concat_length]
        exact read_eq_some.mpr ⟨hslot, Function.update_self ..⟩
    · show (q.tail + 1) % q.cap ≤ q.slots
      exact (Nat.mod_le ..).trans hslot
    · show ∃ j < (b.items ++ [t]).length, i = cell q.cap q.head j
      rw [List.length_append, List.length_singleton]
      rcases eq_or_ne i q.tail with rfl | hne
      · exact ⟨b.items.length, by omega, h.tail⟩
      · replace hi : Function.update q.element q.tail (some t) i ≠ none := hi
        rw [Function.update_of_ne hne] at hi
        obtain ⟨j, hj, he⟩ := h.raw i hi
        exact ⟨j, by omega, he⟩
  · have hle := b.length_le
    have hfull : decide (b.items.length = b.capacity) = true := decide_eq_true (by omega)
    rw [dif_neg hlt]
    refine ⟨q, ?_, h⟩
    simp [hfull]

/-- Where it is not full the queue needs a slot for the element, and a `T` that may be assigned there. -/
theorem push_back_none (h : Holds q b) {t : α} (hlt : b.items.length < b.capacity)
    (hno : ¬ (q.tail < q.slots ∧ T.assignsRaw = true)) : q.push_back T t = none := by
  have hfull : decide (b.items.length = b.capacity) = false := decide_eq_false (by omega)
  have hassign : q.assign T q.tail t = none := by
    rw [assign, h.element_tail]
    exact if_neg (by simpa using hno)
  unfold CircularQueue.push_back
  rw [h.full_eq]
  simp [hfull, hassign]

theorem head_read (h : Holds q b) (hne : b.items ≠ []) : q.read q.head = b.items.head? := by
  have helement := h.element 0 (List.length_pos_iff.mpr hne)
  rwa [cell_zero h.head_lt, ← List.head?_eq_getElem?] at helement

theorem dropFront (h : Holds q b) (hne : b.items ≠ []) : ∃ q', q.dropFront = some q' ∧ Holds q' b.pop_front := by
  have hpos := List.length_pos_iff.mpr hne
  have hlen := h.length_lt
  have hhead := h.head_lt
  have hread := h.head_read hne
  obtain ⟨t, ht⟩ : ∃ t, b.items.head? = some t := Option.isSome_iff_exists.mp (by simpa using hne)
  have hroom := h.room
  have hwrap : ({ q with element := Function.update q.element q.head none } : CircularQueue α).wrap (q.head + 1) =
      some ((q.head + 1) % q.cap) := h.wrap_eq (by omega)
  have hold : ∀ j < b.items.tail.length, cell q.cap ((q.head + 1) % q.cap) j = cell q.cap q.head (j + 1) ∧
      cell q.cap q.head (j + 1) ≠ q.head := fun j hj => by
    rw [List.length_tail] at hj
    refine ⟨cell_next .., fun he => ?_⟩
    have := (cell_inj (by omega) (by omega)).mp (he.trans (cell_zero hhead).symm)
    omega
  refine ⟨{ q with element := Function.update q.element q.head none, head := (q.head + 1) % q.cap }, ?_,
    ⟨?_, fun j hj => ?_⟩, h.cap, Nat.mod_lt _ (by omega), h.tail_le, hroom, fun i hi => ?_⟩
  · unfold CircularQueue.dropFront destroy
    simp only [hread, ht, Option.map_some, Option.bind_eq_bind, Option.bind_some, hwrap]
  · show q.tail = cell q.cap ((q.head + 1) % q.cap) b.items.tail.length
    rw [cell_next, h.tail, List.length_tail, Nat.sub_add_cancel hpos]
  · obtain ⟨hcell, hne'⟩ := hold j hj
    show read _ (cell q.cap ((q.head + 1) % q.cap) j) = b.items.tail[j]?
    replace hj : j < b.items.tail.length := hj
    rw [List.length_tail] at hj
    rw [hcell, List.getElem?_tail, ← h.element (j + 1) (by omega)]
    exact read_congr rfl (Function.update_of_ne hne' ..)
  · show ∃ j < b.items.tail.length, i = cell q.cap ((q.head + 1) % q.cap) j
    replace hi : Function.update q.element q.head none i ≠ none := hi
    have hi' : i ≠ q.head := fun he => hi (by rw [he, Function.update_self])
    rw [Function.update_of_ne hi'] at hi
    obtain ⟨j, hj, rfl⟩ := h.raw i hi
    have hj0 : j ≠ 0 := fun he => hi' (by rw [he, cell_zero hhead])
    refine ⟨j - 1, by rw [List.length_tail]; omega, ?_⟩
    rw [cell_next, Nat.sub_add_cancel (Nat.pos_of_ne_zero hj0)]

theorem back (h : Holds q b) (hne : b.items ≠ []) :
    ∃ k q', q.wrap (sub64 (q.cap + q.tail) 1) = some k ∧ q.read k = b.items.getLast? ∧
      destroy { q with tail := k } k = some q' ∧ Holds q' b.pop_back := by
  have hpos := List.length_pos_iff.mpr hne
  have hlen := h.length_lt
  have hroom := h.room
  have htail := h.tail_le
  obtain ⟨n, hn⟩ : ∃ n, b.items.length = n + 1 := ⟨b.items.length - 1, by omega⟩
  have hlast : b.items.getLast? = b.items[n]? := by
    rw [List.getLast?_eq_getElem?, hn, Nat.add_sub_cancel]
  have hread : q.read (cell q.cap q.head n) = b.items.getLast? := by
    rw [hlast]
    exact h.element n (by omega)
  obtain ⟨t, ht⟩ : ∃ t, b.items.getLast? = some t := Option.isSome_iff_exists.mp (by simpa using hne)
  obtain ⟨hslot, -⟩ := read_eq_some.mp (hread.trans ht)
  have hold : ∀ j < n, cell q.cap q.head j ≠ cell q.cap q.head n := fun j hj he => by
    have := (cell_inj (by omega) (by omega)).mp he
    omega
  have hdrop : b.items.dropLast.length = n := by
    rw [List.length_dropLast, hn, Nat.add_sub_cancel]
  refine ⟨cell q.cap q.head n,
    { q with tail := cell q.cap q.head n, element := Function.update q.element (cell q.cap q.head n) none },
    ?_, hread, ?_, ⟨?_, fun j hj => ?_⟩, h.cap, h.head_lt, ?_, hroom, fun i hi => ?_⟩
  · rw [sub64_of_le (by omega) (by omega), h.wrap_eq (by omega), h.tail, hn, cell_pred h.head_lt (by omega)]
  · unfold destroy
    rw [read_of_tail, hread, ht]
    rfl
  · show cell q.cap q.head n = cell q.cap q.head b.items.dropLast.length
    rw [hdrop]
  · show read _ (cell q.cap q.head j) = b.items.dropLast[j]?
    replace hj : j < b.items.dropLast.length := hj
    rw [hdrop] at hj
    rw [List.getElem?_dropLast, if_pos (by omega), ← h.element j (by omega)]
    exact read_congr rfl (Function.update_of_ne (hold j hj) ..)
  · exact Nat.le_of_lt hslot
  · show ∃ j < b.items.dropLast.length, i = cell q.cap q.head j
    replace hi : Function.update q.element (cell q.cap q.head n) none i ≠ none := hi
    have hi' : i ≠ cell q.cap q.head n := fun he => hi (by rw [he, Function.update_self])
    rw [Function.update_of_ne hi'] at hi
    obtain ⟨j, hj, rfl⟩ := h.raw i hi
    have hjn : j ≠ n := fun he => hi' (by rw [he])
    exact ⟨j, by omega, rfl⟩

end Holds

/-- With a capacity of `SIZE_MAX` there is no slot at all, and `_cap` is 0. -/
structure Stuck (q : CircularQueue α) (b : BoundedList α) : Prop where
  cap : q.cap = 0
  tail : q.head = q.tail
  items : b.items = []
  capacity : 0 < b.capacity

def Fits (q : CircularQueue α) (b : BoundedList α) : Prop := Holds q b ∨ Stuck q b

theorem fits_init (T : ElementType) (cap : UInt64) (given : Bool) :
    Fits (init T cap given : CircularQueue α) (.empty cap.toNat) := by
  have hlt := cap.toNat_lt
  rcases Nat.lt_or_ge (cap.toNat + 1) (2 ^ 64) with h | h
  · have hcap : u64 (cap.toNat + 1) = cap.toNat + 1 := u64_of_lt h
    refine .inl ⟨⟨?_, fun j hj => absurd hj (Nat.not_lt_zero j)⟩, hcap, ?_, Nat.zero_le _, ?_, fun i hi => absurd rfl hi⟩
    · refine (cell_zero (?_ : 0 < u64 _)).symm
      rw [hcap]
      exact Nat.succ_pos _
    · show 0 < u64 _
      rw [hcap]
      exact Nat.succ_pos _
    · show u64 _ + slotsFor T (u64 _) given < 2 ^ 64
      rw [hcap]
      exact slotsFor_room h given
  · have he : cap.toNat = 2 ^ 64 - 1 := by omega
    refine .inr ⟨?_, rfl, rfl, ?_⟩
    · show u64 (cap.toNat + 1) = 0
      rw [he]
      rfl
    · show 0 < cap.toNat
      omega

namespace Fits

theorem agrees (h : Fits q b) : Agrees q b.items := by
  rcases h with h | h
  · exact h.toAgrees
  · refine ⟨?_, fun j hj => ?_⟩
    · rw [h.items, h.cap, ← h.tail]
      simp [cell]
    · rw [h.items] at hj
      exact absurd hj (Nat.not_lt_zero j)

theorem empty_iff (h : Fits q b) : q.head = q.tail ↔ b.items = [] := by
  rcases h with h | h
  · exact h.empty_iff
  · exact iff_of_true h.tail h.items

theorem holds (h : Fits q b) (hne : b.items ≠ []) : Holds q b := h.resolve_right fun hs => hne hs.items

theorem pop_front (h : Fits q b) : ∃ q', q.pop_front = some (q', .void) ∧ Fits q' b.pop_front := by
  unfold CircularQueue.pop_front
  by_cases hne : b.items = []
  · rw [if_neg (by simpa using h.empty_iff.mpr hne)]
    exact ⟨q, rfl, by rwa [BoundedList.pop_front_of_nil hne]⟩
  · obtain ⟨q', hq, hq'⟩ := (h.holds hne).dropFront hne
    rw [if_pos (fun he => hne (h.empty_iff.mp he)), hq]
    exact ⟨q', rfl, .inl hq'⟩

theorem pop_frontInto (h : Fits q b) :
    ∃ q', q.pop_frontInto = some (q', BoundedList.given b.items.head?) ∧ Fits q' b.pop_front := by
  unfold CircularQueue.pop_frontInto
  by_cases hne : b.items = []
  · rw [if_neg (by simpa using h.empty_iff.mpr hne)]
    exact ⟨q, by rw [hne]; rfl, by rwa [BoundedList.pop_front_of_nil hne]⟩
  · obtain ⟨q', hq, hq'⟩ := (h.holds hne).dropFront hne
    obtain ⟨t, ht⟩ : ∃ t, b.items.head? = some t := Option.isSome_iff_exists.mp (by simpa using hne)
    rw [if_pos (fun he => hne (h.empty_iff.mp he)), (h.holds hne).head_read hne, hq, ht]
    exact ⟨q', rfl, .inl hq'⟩

theorem pop_back (h : Fits q b) : ∃ q', q.pop_back = some (q', .void) ∧ Fits q' b.pop_back := by
  unfold CircularQueue.pop_back
  by_cases hne : b.items = []
  · rw [if_neg (by simpa using h.empty_iff.mpr hne)]
    exact ⟨q, rfl, by rwa [BoundedList.pop_back_of_nil hne]⟩
  · obtain ⟨k, q', hk, -, hq, hq'⟩ := (h.holds hne).back hne
    rw [if_pos (fun he => hne (h.empty_iff.mp he)), hk]
    refine ⟨q', ?_, .inl hq'⟩
    simp only [Option.bind_eq_bind, Option.bind_some, hq]

theorem pop_backInto (h : Fits q b) (hne : b.items ≠ []) :
    ∃ q' t, q.pop_backInto = some (q', .missingReturn t) ∧ b.items.getLast? = some t := by
  obtain ⟨k, q', hk, hread, hq, -⟩ := (h.holds hne).back hne
  obtain ⟨t, ht⟩ : ∃ t, b.items.getLast? = some t := Option.isSome_iff_exists.mp (by simpa using hne)
  unfold CircularQueue.pop_backInto
  rw [if_pos (fun he => hne (h.empty_iff.mp he)), hk]
  refine ⟨q', t, ?_, ht⟩
  have hread' : read { q with tail := k } k = some t := by rw [read_of_tail, hread, ht]
  simp only [Option.bind_eq_bind, Option.bind_some, hread', hq]

theorem pop_backInto_of_nil (h : Fits q b) (hnil : b.items = []) :
    q.pop_backInto = some (q, .returns false) ∧ Fits q b.pop_back := by
  unfold CircularQueue.pop_backInto
  rw [if_neg (by simpa using h.empty_iff.mpr hnil)]
  exact ⟨rfl, by rwa [BoundedList.pop_back_of_nil hnil]⟩

theorem clearFrom (h : Fits q b) : ∀ n, b.items.length ≤ n →
    ∃ q', CircularQueue.clearFrom n q = some q' ∧ Fits q' (.empty b.capacity) := by
  intro n
  induction n generalizing q b with
  | zero =>
    intro hle
    have hnil := List.length_eq_zero_iff.mp (Nat.le_zero.mp hle)
    refine ⟨q, if_pos (h.empty_iff.mpr hnil), ?_⟩
    rwa [BoundedList.empty_of_nil hnil]
  | succ n ih =>
    intro hle
    rw [CircularQueue.clearFrom]
    by_cases hnil : b.items = []
    · rw [if_pos (h.empty_iff.mpr hnil)]
      exact ⟨q, rfl, by rwa [BoundedList.empty_of_nil hnil]⟩
    · obtain ⟨q', hq, hq'⟩ := (h.holds hnil).dropFront hnil
      rw [if_neg (fun he => hnil (h.empty_iff.mp he)), hq]
      refine ih (b := b.pop_front) (.inl hq') ?_
      show b.items.tail.length ≤ n
      rw [List.length_tail]
      omega

theorem clear (h : Fits q b) : ∃ q', q.clear = some (q', .void) ∧ Fits q' (.empty b.capacity) := by
  have hle : b.items.length ≤ q.cap := by
    rcases h with h | h
    · exact Nat.le_of_lt h.length_lt
    · rw [h.items]
      exact Nat.zero_le _
  obtain ⟨q', hq, hq'⟩ := h.clearFrom q.cap hle
  exact ⟨q', by rw [CircularQueue.clear, hq]; rfl, hq'⟩

end Fits

/-- What an operation needs. -/
def Allowed (T : ElementType) (qs : Queues α) : Op α → Prop
  | .push_back i _ =>
      (qs i).full = some true ∨ (qs i).full = some false ∧ (qs i).tail < (qs i).slots ∧ T.assignsRaw = true
  | .pop_backInto i => (qs i).head = (qs i).tail
  | _ => True

theorem allowed_push_back {qs : Queues α} {i : Nat} {t : α} : Allowed T qs (.push_back i t) ↔
    (qs i).full = some true ∨ (qs i).full = some false ∧ (qs i).tail < (qs i).slots ∧ T.assignsRaw = true := Iff.rfl

/-- The lists and the queues, with what the last operation should return and what it does. -/
structure Compared (α : Type) where
  lists : Nat → BoundedList α
  queues : Queues α
  expected : Ret α
  ret : Ret α

def both (T : ElementType) (c : Compared α) (op : Op α) : Option (Compared α) :=
  (step T c.queues op).map fun r =>
    { lists := (BoundedList.apply c.lists op).1, queues := r.1
      expected := (BoundedList.apply c.lists op).2, ret := r.2 }

def Good (r : Option (Compared α)) : Prop :=
  ∃ c, r = some c ∧ c.ret = c.expected ∧ ∀ i, Agrees (c.queues i) (c.lists i).items

def Sound (c : Compared α) : Prop := c.ret = c.expected ∧ ∀ i, Fits (c.queues i) (c.lists i)

variable {c : Compared α} {op : Op α} {i : Nat}

theorem Sound.update (h : Sound c) {r : CircularQueue α × Ret α} {e : BoundedList α × Ret α}
    (hstep : step T c.queues op = some (put c.queues i r)) (happly : BoundedList.apply c.lists op = put c.lists i e)
    (hret : r.2 = e.2) (hfits : Fits r.1 e.1) : ∃ c', both T c op = some c' ∧ Sound c' := by
  refine ⟨_, by rw [both, hstep]; rfl, ?_, fun k => ?_⟩
  · rw [happly]
    exact hret
  · rw [happly]
    show Fits (Function.update c.queues i r.1 k) (Function.update c.lists i e.1 k)
    rcases eq_or_ne k i with rfl | hne
    · rw [Function.update_self, Function.update_self]
      exact hfits
    · rw [Function.update_of_ne hne, Function.update_of_ne hne]
      exact h.2 k

theorem Sound.swap (h : Sound c) (i j : Nat) : ∃ c', both T c (.swap i j) = some c' ∧ Sound c' := by
  refine ⟨_, rfl, rfl, fun k => ?_⟩
  show Fits (CircularQueue.swap c.queues i j k) (CircularQueue.swap c.lists i j k)
  unfold CircularQueue.swap
  by_cases hij : i = j
  · rw [if_pos hij, if_pos hij]
    exact h.2 k
  · rw [if_neg hij, if_neg hij]
    rcases eq_or_ne k j with rfl | hj
    · simpa using h.2 i
    · rcases eq_or_ne k i with rfl | hi
      · simpa [Function.update_of_ne hj] using h.2 j
      · simpa [Function.update_of_ne hj, Function.update_of_ne hi] using h.2 k

namespace Stuck

theorem full_eq (h : Stuck q b) : q.full = none := by
  unfold full size wrap
  rw [if_pos h.cap]
  rfl

end Stuck

theorem step_push_back (h : Sound c) {t : α} :
    (Allowed T c.queues (.push_back i t) ∧ ∃ c', both T c (.push_back i t) = some c' ∧ Sound c') ∨
      ¬ Allowed T c.queues (.push_back i t) ∧ ¬ Good (both T c (.push_back i t)) := by
  have bad : (c.queues i).push_back T t = none → ¬ Good (both T c (.push_back i t)) := fun hnone hgood => by
    obtain ⟨c', hc, -⟩ := hgood
    rw [both, step, hnone] at hc
    cases hc
  rcases h.2 i with hq | hq
  · have hfull := hq.full_eq
    have hle := (c.lists i).length_le
    by_cases hok : (c.lists i).items.length < (c.lists i).capacity →
        (c.queues i).tail < (c.queues i).slots ∧ T.assignsRaw = true
    · obtain ⟨q', hpush, hq'⟩ := hq.push_back t hok
      refine .inl ⟨?_, h.update (r := (q', ((c.lists i).push_back t).2)) (by rw [step, hpush]; rfl) rfl rfl (.inl hq')⟩
      rw [allowed_push_back, hfull]
      rcases Nat.lt_or_eq_of_le hle with hlt | heq
      · exact .inr ⟨by rw [decide_eq_false (Nat.ne_of_lt hlt)], hok hlt⟩
      · exact .inl (by rw [decide_eq_true heq])
    · obtain ⟨hlt, hno⟩ := Classical.not_imp.mp hok
      refine .inr ⟨?_, bad (hq.push_back_none hlt hno)⟩
      rw [allowed_push_back, hfull, decide_eq_false (Nat.ne_of_lt hlt)]
      simpa using hno
  · refine .inr ⟨?_, bad ?_⟩
    · rw [allowed_push_back, hq.full_eq]
      simp
    · unfold push_back
      rw [hq.full_eq]
      rfl

theorem step_pop_backInto (h : Sound c) :
    (Allowed T c.queues (.pop_backInto i) ∧ ∃ c', both T c (.pop_backInto i) = some c' ∧ Sound c') ∨
      ¬ Allowed T c.queues (.pop_backInto i) ∧ ¬ Good (both T c (.pop_backInto i)) := by
  have hq := h.2 i
  by_cases hnil : (c.lists i).items = []
  · obtain ⟨hpop, hq'⟩ := hq.pop_backInto_of_nil hnil
    refine .inl ⟨hq.empty_iff.mpr hnil, h.update (r := (c.queues i, .returns false)) ?_ rfl ?_ hq'⟩
    · rw [step, hpop]
      rfl
    · rw [hnil]
      rfl
  · obtain ⟨q', t, hpop, hlast⟩ := hq.pop_backInto hnil
    refine .inr ⟨fun he => hnil (hq.empty_iff.mp he), fun hgood => ?_⟩
    obtain ⟨c', hc, hret, -⟩ := hgood
    rw [both, step, hpop] at hc
    cases hc
    replace hret : Ret.missingReturn t = BoundedList.given (c.lists i).items.getLast? := hret
    rw [hlast] at hret
    cases hret

theorem step_cases (h : Sound c) (op : Op α) :
    (Allowed T c.queues op ∧ ∃ c', both T c op = some c' ∧ Sound c') ∨
      ¬ Allowed T c.queues op ∧ ¬ Good (both T c op) := by
  cases op with
  | push_back i t => exact step_push_back h
  | pop_backInto i => exact step_pop_backInto h
  | swap i j => exact .inl ⟨trivial, h.swap i j⟩
  | pop_front i =>
    obtain ⟨q', hpop, hq'⟩ := (h.2 i).pop_front
    exact .inl ⟨trivial, h.update (r := (q', _)) (by rw [step, hpop]; rfl) rfl rfl hq'⟩
  | pop_frontInto i =>
    obtain ⟨q', hpop, hq'⟩ := (h.2 i).pop_frontInto
    exact .inl ⟨trivial, h.update (r := (q', _)) (by rw [step, hpop]; rfl) rfl rfl hq'⟩
  | pop_back i =>
    obtain ⟨q', hpop, hq'⟩ := (h.2 i).pop_back
    exact .inl ⟨trivial, h.update (r := (q', _)) (by rw [step, hpop]; rfl) rfl rfl hq'⟩
  | clear i =>
    obtain ⟨q', hclear, hq'⟩ := (h.2 i).clear
    exact .inl ⟨trivial, h.update (r := (q', _)) (by rw [step, hclear]; rfl) rfl rfl hq'⟩

/-- Queues of the given capacities, for some of which `malloc` may have failed. -/
def start (T : ElementType) (caps : Nat → UInt64) (given : Nat → Bool) : Compared α :=
  { lists := fun i => .empty (caps i).toNat, queues := fun i => init T (caps i) (given i)
    expected := .void, ret := .void }

def run (T : ElementType) (caps : Nat → UInt64) (given : Nat → Bool) (ops : List (Op α)) : Option (Compared α) :=
  ops.foldl (fun r op => r.bind fun c => both T c op) (some (start T caps given))

/-- Every operation of a run does and returns what it should exactly when all of them are allowed. -/
theorem bounded_list_iff (T : ElementType) (caps : Nat → UInt64) (given : Nat → Bool) (ops : List (Op α)) :
    (∀ t op, t ++ [op] <+: ops → Good (run T caps given (t ++ [op]))) ↔
      ∀ t op, t ++ [op] <+: ops → ∀ c, run T caps given t = some c → Allowed T c.queues op := by
  apply Runs.good_foldl_iff (I := Sound) (M := fun c op => Allowed T c.queues op)
  · exact ⟨rfl, fun i => fits_init T (caps i) (given i)⟩
  · exact fun c h => ⟨c, rfl, h.1, fun i => (h.2 i).agrees⟩
  · exact fun c op h => step_cases h op

def intType : ElementType := { size := 4, size_pos := by decide, assignsRaw := true }

/-- A queue for two elements gets one and gives it back. -/
def pushAndPop : Option (Compared Nat) :=
  run intType (fun _ => 2) (fun _ => true) [.push_back 0 7, .pop_backInto 0]

/-- The element is removed, and no value is returned. -/
theorem pop_back_without_return :
    (pushAndPop.map fun c => (c.ret, c.expected)) = some (.missingReturn 7, .returnsTrue 7) ∧ ¬ Good pushAndPop := by
  have hobs : (pushAndPop.map fun c => (c.ret, c.expected)) = some (.missingReturn 7, .returnsTrue 7) := by
    decide +kernel
  refine ⟨hobs, fun hgood => ?_⟩
  obtain ⟨c, hc, hret, -⟩ := hgood
  rw [hc, Option.map_some, Option.some.injEq, Prod.mk.injEq] at hobs
  rw [hobs.1, hobs.2] at hret
  cases hret

end CircularQueue

end GlobalServer
