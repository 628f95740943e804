import GlobalServer.Lib.OrderedIndex
import GlobalServer.Lib.Runs
import Mathlib.Algebra.Group.Nat.Even
import Mathlib.Logic.Function.Basic

/-!
# The logins that transfersvr keeps

`UserLoginMgr` has one entry for a user, in the order of their times. `Tick`
goes on twice for each entry that it looks at: once where it has looked, and
once more at the head of its loop.
-/

namespace GlobalServer.UserLogin

structure LoginInfo where
  userid : UInt64
  tt : UInt32
  zone : Int
  deriving DecidableEq

/-- The entries in the order of the index `tag_tt`. -/
abbrev LoginInfoContainer := List LoginInfo

def byTime (info : LoginInfo) : Nat := info.tt.toNat

namespace LoginInfoContainer

def getLoginZone (c : LoginInfoContainer) (userid : UInt64) : Int :=
  match c.find? fun info => info.userid = userid with
  | none => 0
  | some info => info.zone

/-- `UpdateLoginInfo`, with the zone it returns. -/
def updateLoginInfo (c : LoginInfoContainer) (userid : UInt64) (zone : Int) (tt : UInt32) : LoginInfoContainer × Int :=
  match c.find? fun info => info.userid = userid with
  | none => (OrderedIndex.insert byTime { userid, tt, zone } c, 0)
  | some info =>
    (OrderedIndex.modify byTime (fun info => info.userid = userid) (fun info => { info with tt, zone }) c, info.zone)

end LoginInfoContainer

open LoginInfoContainer

/-- `now.second() - iter->tt > 30` -/
def expired (now : Int) (info : LoginInfo) : Bool := 30 < now - info.tt.toNat

/-- The loop of `Tick`: what is left of the entries from the iterator on. It is `none` when the head of the loop
advances an iterator that is at the end. -/
def tick (now : Int) : LoginInfoContainer → Option LoginInfoContainer
  | [] => some []
  | [_] => none
  | info :: skipped :: c =>
    (tick now c).map fun c => (if expired now info then [] else [info]) ++ skipped :: c

inductive Event where
  | updateLoginInfo (userid : UInt64) (zone : Int) (tt : UInt32)
  | tick (now : Int)
  deriving DecidableEq

/-! ## The map that it stands for -/

/-- The latest update of each user that no tick has expired. -/
abbrev LoginMap := UInt64 → Option (Int × UInt32)

def LoginMap.zone (m : LoginMap) (userid : UInt64) : Int :=
  match m userid with
  | none => 0
  | some r => r.1

def LoginMap.after (m : LoginMap) : Event → LoginMap
  | .updateLoginInfo userid zone tt => Function.update m userid (some (zone, tt))
  | .tick now => fun userid => (m userid).filter fun r => ! expired now { userid, tt := r.2, zone := r.1 }

/-- The container, unless an iterator has been advanced past its end, and the map. -/
structure State where
  mgr : Option LoginInfoContainer
  latest : LoginMap

namespace State

def init : State := { mgr := some [], latest := fun _ => none }

def perform (s : State) (e : Event) : State where
  mgr := s.mgr.bind fun c => match e with
    | .updateLoginInfo userid zone tt => some (c.updateLoginInfo userid zone tt).1
    | .tick now => tick now c
  latest := s.latest.after e

/-- After the event the zones are those of the map, and a tick has removed what has expired and nothing else. -/
structure Kept (s : State) (e : Event) : Prop where
  zone : ∃ c, (s.perform e).mgr = some c ∧ ∀ userid, c.getLoginZone userid = (s.latest.after e).zone userid
  removed : ∀ now, e = .tick now → ∃ c c', s.mgr = some c ∧ tick now c = some c' ∧
    ∀ info, info ∈ c' ↔ info ∈ c ∧ expired now info = false

/-- A tick finds an even number of entries, at most one of them expired. -/
def Meets (s : State) : Event → Prop
  | .updateLoginInfo _ _ _ => True
  | .tick now => ∃ c, s.mgr = some c ∧ Even c.length ∧ (c.filter (expired now)).length ≤ 1

end State

/-- The container holds the entries of the map, each once and in the order of time. -/
structure Holds (c : LoginInfoContainer) (m : LoginMap) : Prop where
  sorted : OrderedIndex.Sorted byTime c
  nodup : (c.map LoginInfo.userid).Nodup
  mem_iff : ∀ info, info ∈ c ↔ m info.userid = some (info.zone, info.tt)

/-! ## Updates -/

theorem holds_nil : Holds [] fun _ => none := ⟨OrderedIndex.sorted_nil, List.nodup_nil, by simp⟩

section
variable {c : LoginInfoContainer} {m : LoginMap} {userid : UInt64} {zone : Int} {tt : UInt32}

theorem Holds.getLoginZone (h : Holds c m) (userid : UInt64) : c.getLoginZone userid = m.zone userid := by
  unfold LoginInfoContainer.getLoginZone LoginMap.zone
  cases hf : c.find? fun info => info.userid = userid with
  | none =>
    have hnone : m userid = none := by
      rw [Option.eq_none_iff_forall_ne_some]
      rintro ⟨zone, tt⟩ hm
      have hmem := (h.mem_iff { userid, tt, zone }).mpr hm
      simpa using List.find?_eq_none.mp hf _ hmem
    rw [hnone]
  | some info =>
    have hu : info.userid = userid := by simpa using List.find?_some hf
    have hm := (h.mem_iff info).mp (List.mem_of_find?_eq_some hf)
    rw [← hu, hm]

theorem Holds.perm_update (h : Holds c m) :
    (c.updateLoginInfo userid zone tt).1.Perm ({ userid, tt, zone } :: c.filter fun info => info.userid ≠ userid) := by
  unfold LoginInfoContainer.updateLoginInfo
  cases hf : c.find? fun info => info.userid = userid with
  | none => exact OrderedIndex.perm_insert_name hf
  | some info =>
    have hu : info.userid = userid := by simpa using List.find?_some hf
    subst hu
    exact OrderedIndex.perm_modify_name h.nodup (List.mem_of_find?_eq_some hf)

theorem Holds.update (h : Holds c m) :
    Holds (c.updateLoginInfo userid zone tt).1 (m.after (.updateLoginInfo userid zone tt)) := by
  have hp : (c.updateLoginInfo userid zone tt).1.Perm _ := h.perm_update
  refine ⟨?_, ?_, fun info => ?_⟩
  · unfold LoginInfoContainer.updateLoginInfo
    split
    · exact OrderedIndex.sorted_insert h.sorted
    · exact OrderedIndex.sorted_modify h.sorted
  · rw [(hp.map LoginInfo.userid).nodup_iff, List.map_cons, List.nodup_cons]
    refine ⟨by simp, ?_⟩
    exact h.nodup.sublist (List.filter_sublist.map _)
  · rw [hp.mem_iff, List.mem_cons, List.mem_filter, h.mem_iff]
    show _ ↔ Function.update m userid (some (zone, tt)) info.userid = _
    by_cases hu : info.userid = userid
    · subst hu
      rw [Function.update_self]
      obtain ⟨u, t, z⟩ := info
      simp [eq_comm, and_comm]
    · rw [Function.update_of_ne hu]
      have hne : info ≠ { userid, tt, zone } := fun he => hu (by rw [he])
      simp [hu, hne]

end

/-! ## Ticks -/

section
variable {now : Int} {c c' : LoginInfoContainer} {m : LoginMap}

theorem expired_of_le {info info' : LoginInfo} (hle : byTime info ≤ byTime info') (h : expired now info' = true) :
    expired now info = true := by
  unfold expired at *
  unfold byTime at hle
  rw [decide_eq_true_eq] at *
  omega

theorem even_tail {info skipped : LoginInfo} : Even (info :: skipped :: c).length ↔ Even c.length := by
  rw [List.length_cons, List.length_cons, Nat.add_assoc, Nat.even_add]
  exact iff_true_right ⟨1, rfl⟩

theorem tick_length (h : tick now c = some c') : Even c.length := by
  fun_induction tick now c generalizing c' with
  | case1 => exact Even.zero
  | case2 => cases h
  | case3 info skipped c ih =>
    obtain ⟨c'', hc, -⟩ := Option.map_eq_some_iff.mp h
    exact even_tail.mpr (ih hc)

theorem tick_sublist (h : tick now c = some c') : c'.Sublist c := by
  fun_induction tick now c generalizing c' with
  | case1 =>
    cases h
    exact List.Sublist.refl _
  | case2 => cases h
  | case3 info skipped c ih =>
    obtain ⟨c'', hc, rfl⟩ := Option.map_eq_some_iff.mp h
    have hs := (ih hc).cons_cons skipped
    split
    · exact hs.cons info
    · exact hs.cons_cons info

theorem tick_of_live (heven : Even c.length) (h : ∀ info ∈ c, expired now info = false) : tick now c = some c := by
  fun_induction tick now c with
  | case1 => rfl
  | case2 info => exact absurd heven Nat.not_even_one
  | case3 info skipped c ih =>
    rw [ih (even_tail.mp heven) fun i hi => h i (List.mem_cons_of_mem _ (List.mem_cons_of_mem _ hi)), h info List.mem_cons_self]
    rfl

/-- A tick removes what has expired, and only that, when the second entry has not. -/
theorem tick_removes (hs : OrderedIndex.Sorted byTime c) (heven : Even c.length)
    (h : (c.filter (expired now)).length ≤ 1) :
    tick now c = some (c.filter fun info => ! expired now info) := by
  cases c with
  | nil => rfl
  | cons info c =>
    cases c with
    | nil => exact absurd heven Nat.not_even_one
    | cons skipped c =>
      obtain ⟨hle, hs⟩ := List.pairwise_cons.mp hs
      have hlive : expired now skipped = false := by
        by_contra hx
        have hx : expired now skipped = true := by simpa using hx
        rw [List.filter_cons_of_pos (expired_of_le (hle skipped List.mem_cons_self) hx), List.filter_cons_of_pos hx,
          List.length_cons, List.length_cons] at h
        omega
      have hrest : ∀ i ∈ c, expired now i = false := by
        intro i hi
        by_contra hx
        have hle := (List.pairwise_cons.mp hs).1 i hi
        rw [expired_of_le hle (by simpa using hx)] at hlive
        cases hlive
      have hall : (skipped :: c).filter (fun info => ! expired now info) = skipped :: c := by
        rw [List.filter_eq_self]
        intro i hi
        rcases List.mem_cons.mp hi with rfl | hi
        · simp [hlive]
        · simp [hrest i hi]
      rw [tick, tick_of_live (even_tail.mp heven) hrest, Option.map_some]
      cases hx : expired now info with
      | true => rw [List.filter_cons_of_neg (by simp [hx]), hall]; rfl
      | false => rw [List.filter_cons_of_pos (by simp [hx]), hall]; rfl

theorem expired_le_one (hs : OrderedIndex.Sorted byTime c) (h : tick now c = some c')
    (hmem : ∀ info, info ∈ c' ↔ info ∈ c ∧ expired now info = false) : (c.filter (expired now)).length ≤ 1 := by
  cases c with
  | nil => exact Nat.zero_le 1
  | cons info c =>
    cases c with
    | nil => cases h
    | cons skipped c =>
      obtain ⟨-, hs⟩ := List.pairwise_cons.mp hs
      obtain ⟨c'', hc, rfl⟩ := Option.map_eq_some_iff.mp h
      have hlive : expired now skipped = false :=
        ((hmem skipped).mp (List.mem_append_right _ List.mem_cons_self)).2
      have hnone : (skipped :: c).filter (expired now) = [] := by
        rw [List.filter_eq_nil_iff]
        intro i hi hx
        rcases List.mem_cons.mp hi with rfl | hi
        · rw [hlive] at hx
          cases hx
        · rw [expired_of_le ((List.pairwise_cons.mp hs).1 i hi) hx] at hlive
          cases hlive
      rw [List.filter_cons, hnone]
      split <;> simp

theorem Holds.tick (h : Holds c m) (hsub : c'.Sublist c)
    (hmem : ∀ info, info ∈ c' ↔ info ∈ c ∧ expired now info = false) : Holds c' (m.after (.tick now)) := by
  refine ⟨h.sorted.sublist hsub, h.nodup.sublist (hsub.map _), fun info => ?_⟩
  rw [hmem, h.mem_iff]
  show _ ↔ (m info.userid).filter _ = some (info.zone, info.tt)
  rw [Option.filter_eq_some_iff]
  simp

end

/-! ## Sequences -/

namespace State

/-- The container stands for the map. -/
def Tracks (s : State) : Prop := ∃ c, s.mgr = some c ∧ Holds c s.latest

variable {s : State} {e : Event}

theorem Tracks.of_kept (h : s.Tracks) (hk : s.Kept e) : (s.perform e).Tracks := by
  obtain ⟨c, hc, hh⟩ := h
  cases e with
  | updateLoginInfo userid zone tt =>
    refine ⟨(c.updateLoginInfo userid zone tt).1, ?_, hh.update⟩
    unfold perform
    rw [hc]
    rfl
  | tick now =>
    obtain ⟨c₁, c', hc₁, ht, hmem⟩ := hk.removed now rfl
    cases hc.symm.trans hc₁
    refine ⟨c', ?_, hh.tick (tick_sublist ht) hmem⟩
    unfold perform
    rw [hc]
    exact ht

theorem Tracks.kept_iff (h : s.Tracks) : s.Kept e ↔ s.Meets e := by
  obtain ⟨c, hc, hh⟩ := h
  cases e with
  | updateLoginInfo userid zone tt =>
    refine ⟨fun _ => trivial, fun _ => ⟨⟨(c.updateLoginInfo userid zone tt).1, ?_, fun u => ?_⟩, nofun⟩⟩
    · unfold perform
      rw [hc]
      rfl
    · exact hh.update.getLoginZone u
  | tick now =>
    constructor
    · intro hk
      obtain ⟨c₁, c', hc₁, ht, hmem⟩ := hk.removed now rfl
      cases hc.symm.trans hc₁
      exact ⟨c, hc, tick_length ht, expired_le_one hh.sorted ht hmem⟩
    · rintro ⟨c₁, hc₁, heven, hone⟩
      cases hc.symm.trans hc₁
      have ht := tick_removes hh.sorted heven hone
      have hmem : ∀ info, info ∈ c.filter (fun info => ! expired now info) ↔ info ∈ c ∧ expired now info = false := by
        intro info
        rw [List.mem_filter, Bool.not_eq_true']
      refine ⟨⟨_, ?_, fun u => (hh.tick (tick_sublist ht) hmem).getLoginZone u⟩, ?_⟩
      · unfold perform
        rw [hc]
        exact ht
      · rintro now' he
        cases he
        exact ⟨c, _, hc, ht, hmem⟩

theorem tracks_init : init.Tracks := ⟨[], rfl, holds_nil⟩

/-- The zones are those of the map, and ticks remove what has expired, in exactly the sequences in which each tick finds
an even number of entries and at most one that has expired. -/
theorem logins_kept_iff (t : List Event) :
    (∀ t₁ e, t₁ ++ [e] <+: t → (t₁.foldl perform init).Kept e) ↔
      ∀ t₁ e, t₁ ++ [e] <+: t → (t₁.foldl perform init).Meets e :=
  Runs.always_foldl_iff tracks_init (fun _ _ h => h.kept_iff) (fun _ _ h hk => h.of_kept hk) t

/-- With one entry the iterator is advanced past the end. -/
theorem one_login_not_kept : ¬ (([.updateLoginInfo 7 1 100] : List Event).foldl perform init).Kept (.tick 100) := by
  intro h
  obtain ⟨c, c', hc, ht, -⟩ := h.removed 100 rfl
  cases hc
  cases ht

/-- Of two entries that have expired one is left. -/
example : ((([.updateLoginInfo 7 1 100, .updateLoginInfo 8 2 101, .tick 200] : List Event).foldl perform init).mgr.map
    fun c => c.getLoginZone 8) = some 2 := by decide

end State

end GlobalServer.UserLogin
