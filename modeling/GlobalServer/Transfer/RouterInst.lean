import GlobalServer.Lib.OrderedIndex
import GlobalServer.Lib.Runs
import Mathlib.Logic.Function.Basic

/-!
# The routers logged in at transfersvr

`RouterInstanceMgr` never removes a router: one that is out stays with the
descriptor 0. The routers of which `GetRouterFd` chooses one are all that it
has, in the order of their ids.
-/

namespace GlobalServer.RouterInst

structure RouterInstInfo where
  fd : Int
  instId : Int32
  deriving DecidableEq

/-- The entries in the order of the index `tag_fd`. -/
abbrev RouterInstInfoContainer := List RouterInstInfo

def SVR_TYPE_ROUTER : UInt32 := 1

def idLe (x y : Int32) : Prop := x.toInt ≤ y.toInt

instance : DecidableRel idLe := fun x y => inferInstanceAs (Decidable (x.toInt ≤ y.toInt))

instance : IsTrans Int32 idLe := ⟨fun _ _ _ h h' => Int.le_trans h h'⟩

instance : Std.Total idLe := ⟨fun x y => Int.le_total x.toInt y.toInt⟩

instance : Std.Antisymm idLe := ⟨fun _ _ h h' => Int32.toInt_inj.mp (Int.le_antisymm h h')⟩

namespace RouterInstInfoContainer

/-- `LoginInstance`, with what it returns. -/
def loginInstance (c : RouterInstInfoContainer) (serverType : UInt32) (instId : Int32) (fd : Int) :
    RouterInstInfoContainer × Int :=
  if serverType ≠ SVR_TYPE_ROUTER then (c, -1) else
  match c.find? fun info => info.instId = instId with
  | none => (OrderedIndex.insert RouterInstInfo.fd { fd, instId } c, 0)
  | some _ =>
    (OrderedIndex.modify RouterInstInfo.fd (fun info => info.instId = instId) (fun info => { info with fd }) c, 0)

def logoutInstance (c : RouterInstInfoContainer) (fd : Int) : RouterInstInfoContainer :=
  if fd = 0 then c else
  OrderedIndex.modify RouterInstInfo.fd (fun info => info.fd = fd) (fun info => { info with fd := 0 }) c

/-- The entries in the order of the index `tag_inst_id`. -/
def byId (c : RouterInstInfoContainer) : List RouterInstInfo := c.insertionSort fun x y => idLe x.instId y.instId

def getRouterFd (c : RouterInstInfoContainer) (uid : UInt64) : Int :=
  let fdVec := c.byId.map RouterInstInfo.fd
  if fdVec = [] then 0 else fdVec[uid.toNat % fdVec.length]?.getD 0

/-- The router at the position that a user has. -/
def routerOf (c : RouterInstInfoContainer) (uid : UInt64) : Option Int32 :=
  (c.byId.map RouterInstInfo.instId)[uid.toNat % c.length]?

end RouterInstInfoContainer

open RouterInstInfoContainer

inductive Event where
  | login (serverType : UInt32) (instId : Int32) (fd : Int)
  | logout (fd : Int)
  deriving DecidableEq

/-- The container, and the routers that are logged in with their descriptors. -/
structure State where
  mgr : RouterInstInfoContainer
  online : Int32 → Option Int

namespace State

def init : State := { mgr := [], online := fun _ => none }

def perform (s : State) : Event → State
  | .login serverType instId fd =>
    let r := s.mgr.loginInstance serverType instId fd
    { mgr := r.1, online := if r.2 = 0 then Function.update s.online instId (some fd) else s.online }
  | .logout fd =>
    { mgr := s.mgr.logoutInstance fd, online := fun id => (s.online id).filter fun fd' => fd' ≠ fd }

/-- A login has a descriptor, and a logout one that at most one router has. -/
def Meets (s : State) : Event → Prop
  | .login _ _ fd => fd ≠ 0
  | .logout fd => (s.mgr.filter fun info => info.fd = fd).length ≤ 1 ∨ fd = 0

instance (s : State) (e : Event) : Decidable (s.Meets e) := by
  cases e <;> unfold Meets <;> infer_instance

/-- A user is given the descriptor of a router that is logged in, or 0 when none is. -/
def Given (s : State) (uid : UInt64) : Prop :=
  (∃ id, s.online id = some (s.mgr.getRouterFd uid)) ∨ (∀ id, s.online id = none) ∧ s.mgr.getRouterFd uid = 0

/-- The router at the position of a user is logged in, or none is. -/
def Chosen (s : State) (uid : UInt64) : Prop :=
  (∃ id, s.mgr.routerOf uid = some id ∧ s.online id ≠ none) ∨ ∀ id, s.online id = none

def loggedIn (s : State) (id : Int32) : Bool := (s.online id).isSome

def step (s : State) (e : Event) (s' : State) : Prop := s' = s.perform e

end State

/-- Each router that has been logged in is in the container, with the descriptor that it is logged in with or 0. -/
structure Holds (c : RouterInstInfoContainer) (online : Int32 → Option Int) : Prop where
  nodup : (c.map RouterInstInfo.instId).Nodup
  fd_eq : ∀ info ∈ c, info.fd = (online info.instId).getD 0
  known : ∀ id, online id ≠ none → id ∈ c.map RouterInstInfo.instId
  fd_ne : ∀ id, online id ≠ some 0

section
variable {c c' : RouterInstInfoContainer} {online : Int32 → Option Int} {instId : Int32} {fd : Int} {uid : UInt64}

/-! ## The choice -/

theorem byId_perm (c : RouterInstInfoContainer) : c.byId.Perm c := List.perm_insertionSort _ c

theorem byId_length (c : RouterInstInfoContainer) : c.byId.length = c.length := List.length_insertionSort _ c

theorem byId_ids (c : RouterInstInfoContainer) :
    c.byId.map RouterInstInfo.instId = (c.map RouterInstInfo.instId).insertionSort idLe :=
  List.map_insertionSort _ _ _ _ fun _ _ _ _ => Iff.rfl

/-- The position of a user is that of the same router as long as the routers are the same. -/
theorem routerOf_of_perm (h : (c'.map RouterInstInfo.instId).Perm (c.map RouterInstInfo.instId)) :
    c'.routerOf uid = c.routerOf uid := by
  have hlen : c'.length = c.length := by simpa using h.length_eq
  have hids : (c'.map RouterInstInfo.instId).insertionSort idLe = (c.map RouterInstInfo.instId).insertionSort idLe := by
    refine List.Perm.eq_of_pairwise' (List.pairwise_insertionSort idLe _) (List.pairwise_insertionSort idLe _) ?_
    exact (List.perm_insertionSort idLe _).trans (h.trans (List.perm_insertionSort idLe _).symm)
  unfold routerOf
  rw [byId_ids, byId_ids, hlen, hids]

theorem getRouterFd_eq (c : RouterInstInfoContainer) (uid : UInt64) :
    c = [] ∧ c.routerOf uid = none ∧ c.getRouterFd uid = 0 ∨
      ∃ info ∈ c, c.routerOf uid = some info.instId ∧ c.getRouterFd uid = info.fd := by
  cases hc : c.byId with
  | nil =>
    have hnil : c = [] := List.eq_nil_of_length_eq_zero (by rw [← byId_length, hc, List.length_nil])
    subst hnil
    exact .inl ⟨rfl, rfl, rfl⟩
  | cons first rest =>
    have hpos : 0 < c.length := by
      rw [← byId_length, hc]
      exact Nat.succ_pos _
    have hlt : uid.toNat % c.length < c.byId.length := by
      rw [byId_length]
      exact Nat.mod_lt _ hpos
    refine .inr ⟨c.byId[uid.toNat % c.length], (byId_perm c).mem_iff.mp (List.getElem_mem hlt), ?_, ?_⟩
    · unfold routerOf
      rw [List.getElem?_map, List.getElem?_eq_getElem hlt, Option.map_some]
    · unfold getRouterFd
      rw [if_neg (by rw [hc]; exact List.cons_ne_nil _ _), List.length_map, byId_length, List.getElem?_map,
        List.getElem?_eq_getElem hlt, Option.map_some, Option.getD_some]

theorem Holds.given_iff {s : State} (h : Holds s.mgr s.online) : s.Given uid ↔ s.Chosen uid := by
  rcases getRouterFd_eq s.mgr uid with ⟨hnil, hr, hfd⟩ | ⟨info, hi, hr, hfd⟩
  · have hnone : ∀ id, s.online id = none := by
      intro id
      by_contra hid
      have := h.known id hid
      rw [hnil] at this
      cases this
    exact ⟨fun _ => .inr hnone, fun _ => .inr ⟨hnone, hfd⟩⟩
  · have hfd' := h.fd_eq info hi
    constructor
    · rintro (⟨id, hid⟩ | ⟨hnone, -⟩)
      · -- the descriptor is not 0, so that the entry is one that is logged in
        refine .inl ⟨info.instId, hr, fun hn => h.fd_ne id ?_⟩
        rw [hid, hfd, hfd', hn, Option.getD_none]
      · exact .inr hnone
    · rintro (⟨id, hid, hon⟩ | hnone)
      · cases hr.symm.trans hid
        obtain ⟨fd, hfd₁⟩ := Option.ne_none_iff_exists'.mp hon
        rw [hfd₁, Option.getD_some] at hfd'
        exact .inl ⟨info.instId, by rw [hfd, hfd', hfd₁]⟩
      · rw [hnone, Option.getD_none] at hfd'
        exact .inr ⟨hnone, hfd.trans hfd'⟩

/-! ## Logins -/

theorem Holds.perm_login (h : Holds c online) :
    (c.loginInstance SVR_TYPE_ROUTER instId fd).1.Perm ({ fd, instId } :: c.filter fun info => info.instId ≠ instId) := by
  unfold loginInstance
  rw [if_neg (by simp)]
  cases hf : c.find? fun info => info.instId = instId with
  | none => exact OrderedIndex.perm_insert_name hf
  | some info =>
    have hu : info.instId = instId := by simpa using List.find?_some hf
    subst hu
    exact OrderedIndex.perm_modify_name h.nodup (List.mem_of_find?_eq_some hf)

theorem Holds.login (h : Holds c online) (hfd : fd ≠ 0) :
    Holds (c.loginInstance SVR_TYPE_ROUTER instId fd).1 (Function.update online instId (some fd)) := by
  have hp : (c.loginInstance SVR_TYPE_ROUTER instId fd).1.Perm _ := h.perm_login
  refine ⟨?_, fun info hi => ?_, fun id hid => ?_, fun id => ?_⟩
  · rw [(hp.map RouterInstInfo.instId).nodup_iff, List.map_cons, List.nodup_cons]
    exact ⟨by simp, h.nodup.sublist (List.filter_sublist.map _)⟩
  · rcases List.mem_cons.mp (hp.mem_iff.mp hi) with rfl | hi
    · rw [Function.update_self, Option.getD_some]
    · obtain ⟨hi, hne⟩ := List.mem_filter.mp hi
      rw [Function.update_of_ne (by simpa using hne)]
      exact h.fd_eq info hi
  · rw [(hp.map RouterInstInfo.instId).mem_iff, List.map_cons, List.mem_cons]
    by_cases he : id = instId
    · exact .inl he
    · rw [Function.update_of_ne he] at hid
      obtain ⟨info, hi, rfl⟩ := List.mem_map.mp (h.known id hid)
      exact .inr (List.mem_map_of_mem (List.mem_filter.mpr ⟨hi, by simpa using he⟩))
  · by_cases he : id = instId
    · rw [he, Function.update_self]
      simpa using hfd
    · rw [Function.update_of_ne he]
      exact h.fd_ne id

/-! ## Logouts -/

theorem perm_logout (hfd : fd ≠ 0) (h : (c.filter fun info => info.fd = fd).length ≤ 1) :
    (c.logoutInstance fd).Perm
      ((c.filter fun info => info.fd = fd).map (fun info => { info with fd := 0 }) ++ c.filter fun info => info.fd ≠ fd) := by
  unfold logoutInstance
  rw [if_neg hfd]
  have hp : (OrderedIndex.modify RouterInstInfo.fd (fun info => info.fd = fd) (fun info => { info with fd := 0 }) c).Perm _ :=
    OrderedIndex.perm_modify h
  simpa using hp

theorem ids_logout (h : (c.filter fun info => info.fd = fd).length ≤ 1 ∨ fd = 0) :
    ((c.logoutInstance fd).map RouterInstInfo.instId).Perm (c.map RouterInstInfo.instId) := by
  by_cases hfd : fd = 0
  · unfold logoutInstance
    rw [if_pos hfd]
  · refine ((perm_logout hfd (h.resolve_right hfd)).map _).trans ?_
    rw [List.map_append, List.map_map]
    have hmap : RouterInstInfo.instId ∘ (fun info => { info with fd := 0 }) = RouterInstInfo.instId := rfl
    rw [hmap, ← List.map_append]
    simpa using (List.filter_append_perm (fun info : RouterInstInfo => info.fd = fd) c).map RouterInstInfo.instId

theorem Holds.logout (h : Holds c online) (hone : (c.filter fun info => info.fd = fd).length ≤ 1 ∨ fd = 0) :
    Holds (c.logoutInstance fd) fun id => (online id).filter fun fd' => fd' ≠ fd := by
  have hids := ids_logout hone
  refine ⟨hids.nodup_iff.mpr h.nodup, fun info hi => ?_, fun id hid => ?_, fun id => ?_⟩
  · by_cases hfd : fd = 0
    · unfold logoutInstance at hi
      rw [if_pos hfd] at hi
      rw [h.fd_eq info hi]
      cases hon : online info.instId with
      | none => rfl
      | some fd' =>
        have hne : fd' ≠ fd := fun he => h.fd_ne info.instId (by rw [hon, he, hfd])
        rw [Option.filter_some, if_pos (by simpa using hne)]
    · rcases List.mem_append.mp ((perm_logout hfd (hone.resolve_right hfd)).mem_iff.mp hi) with hi | hi
      · obtain ⟨info, hmem, rfl⟩ := List.mem_map.mp hi
        obtain ⟨hmem, he⟩ := List.mem_filter.mp hmem
        have hinfo := h.fd_eq info hmem
        rw [of_decide_eq_true he] at hinfo
        cases hon : online info.instId with
        | none => rfl
        | some fd' =>
          rw [hon, Option.getD_some] at hinfo
          rw [Option.filter_some, if_neg (by simpa using hinfo.symm), Option.getD_none]
      · obtain ⟨hi, he⟩ := List.mem_filter.mp hi
        have hinfo := h.fd_eq info hi
        cases hon : online info.instId with
        | none => rw [hinfo, hon]; rfl
        | some fd' =>
          rw [hon, Option.getD_some] at hinfo
          subst hinfo
          rw [Option.filter_some, if_pos he, Option.getD_some]
  · refine hids.mem_iff.mpr (h.known id fun hn => hid ?_)
    rw [hn]
    rfl
  · rintro hs
    exact h.fd_ne id (Option.filter_eq_some_iff.mp hs).1

end

/-! ## Sequences -/

namespace State

theorem holds_init : Holds init.mgr init.online :=
  ⟨List.nodup_nil, nofun, fun _ h => absurd rfl h, fun _ => nofun⟩

variable {s s' : State} {e : Event} {t : List Event}

theorem perform_login (s : State) (serverType : UInt32) (instId : Int32) (fd : Int) :
    s.perform (.login serverType instId fd) = ⟨(s.mgr.loginInstance serverType instId fd).1,
      if (s.mgr.loginInstance serverType instId fd).2 = 0 then Function.update s.online instId (some fd) else s.online⟩ := rfl

theorem perform_other {serverType : UInt32} {instId : Int32} {fd : Int} (h : serverType ≠ SVR_TYPE_ROUTER) :
    s.perform (.login serverType instId fd) = s := by
  have hl : s.mgr.loginInstance serverType instId fd = (s.mgr, -1) := if_pos h
  rw [perform_login, hl]
  rfl

theorem perform_router {instId : Int32} {fd : Int} : s.perform (.login SVR_TYPE_ROUTER instId fd) =
    ⟨(s.mgr.loginInstance SVR_TYPE_ROUTER instId fd).1, Function.update s.online instId (some fd)⟩ := by
  have hz : (s.mgr.loginInstance SVR_TYPE_ROUTER instId fd).2 = 0 := by
    unfold loginInstance
    rw [if_neg (by simp)]
    split <;> rfl
  rw [perform_login, hz]
  rfl

theorem holds_perform (h : Holds s.mgr s.online) (hm : s.Meets e) : Holds (s.perform e).mgr (s.perform e).online := by
  cases e with
  | login serverType instId fd =>
    by_cases ht : serverType = SVR_TYPE_ROUTER
    · rw [ht, perform_router]
      exact h.login hm
    · rwa [perform_other ht]
  | logout fd => exact h.logout hm

theorem ids_perform (h : Holds s.mgr s.online) (hm : s.Meets e) (hl : (s.perform e).loggedIn = s.loggedIn) :
    ((s.perform e).mgr.map RouterInstInfo.instId).Perm (s.mgr.map RouterInstInfo.instId) := by
  cases e with
  | login serverType instId fd =>
    by_cases ht : serverType = SVR_TYPE_ROUTER
    · subst ht
      rw [perform_router] at hl ⊢
      have hin : (Function.update s.online instId (some fd) instId).isSome = (s.online instId).isSome := congrFun hl instId
      rw [Function.update_self] at hin
      have hid := h.known instId (Option.isSome_iff_ne_none.mp hin.symm)
      obtain ⟨info, hi, rfl⟩ := List.mem_map.mp hid
      refine (h.perm_login.map _).trans ?_
      have hall := (List.filter_append_perm (fun y : RouterInstInfo => y.instId = info.instId) s.mgr).map RouterInstInfo.instId
      rw [OrderedIndex.filter_name h.nodup hi] at hall
      simpa using hall
    · rw [perform_other ht]
  | logout fd => exact ids_logout hm

theorem holds_run (h : Runs.Run step (fun _ s e => s.Meets e) init t s) : Holds s.mgr s.online := by
  refine h.invariant (fun _ s => Holds s.mgr s.online) holds_init ?_
  rintro t s e _ - hs hm rfl
  exact holds_perform hs hm

theorem routerOf_run (hs : Holds s.mgr s.online) {uid : UInt64}
    (h : Runs.Run step (fun _ s₁ e => s₁.Meets e ∧ (s₁.perform e).loggedIn = s.loggedIn) s t s') :
    s'.mgr.routerOf uid = s.mgr.routerOf uid := by
  have hinv := h.invariant (fun _ s₁ => Holds s₁.mgr s₁.online ∧ s₁.loggedIn = s.loggedIn ∧
    (s₁.mgr.map RouterInstInfo.instId).Perm (s.mgr.map RouterInstInfo.instId)) ⟨hs, rfl, List.Perm.refl _⟩ ?_
  · exact routerOf_of_perm hinv.2.2
  · rintro t s₁ e _ - ⟨h₁, hl, hp⟩ ⟨hm, hl'⟩ rfl
    exact ⟨holds_perform h₁ hm, hl', (ids_perform h₁ hm (hl'.trans hl.symm)).trans hp⟩

/-- A user is given a router that is logged in exactly when the one at the position of the user is; and the router at
that position changes only when other routers are logged in. -/
theorem routers_given_iff (h : Runs.Run step (fun _ s e => s.Meets e) init t s) :
    (∀ uid, s.Given uid ↔ s.Chosen uid) ∧
      ∀ t' s', Runs.Run step (fun _ s₁ e => s₁.Meets e ∧ (s₁.perform e).loggedIn = s.loggedIn) s t' s' →
        ∀ uid, s'.mgr.routerOf uid = s.mgr.routerOf uid :=
  ⟨fun _ => (holds_run h).given_iff, fun _ _ h' _ => routerOf_run (holds_run h) h'⟩

theorem run_offline : Runs.Run step (fun _ s e => s.Meets e) init [.login 1 1 5, .login 1 2 6, .logout 6]
    (([.login 1 1 5, .login 1 2 6, .logout 6] : List Event).foldl perform init) :=
  ((Runs.Run.nil.snoc (by decide) rfl).snoc (by decide) rfl).snoc (by decide) rfl

theorem routers_given_offline : (([.login 1 1 5, .login 1 2 6, .logout 6] : List Event).foldl perform init).Given 0 :=
  ((routers_given_iff run_offline).1 0).mpr (.inl ⟨1, by decide, by decide⟩)

/-- The users of a router that is out are given no descriptor, though another router is logged in. -/
theorem users_of_offline_not_given :
    ¬ (([.login 1 1 5, .login 1 2 6, .logout 6] : List Event).foldl perform init).Given 1 := by
  rintro (⟨id, hid⟩ | ⟨hnone, -⟩)
  · exact (holds_run run_offline).fd_ne id hid
  · exact absurd (hnone 1) (by decide)

end State

end GlobalServer.RouterInst
