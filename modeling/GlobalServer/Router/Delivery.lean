import GlobalServer.Router.Policies
import GlobalServer.Router.Received
import Mathlib.Data.List.Sort

/-!
# Which instances get a message

A message for the instance 0 goes to those that its type's policy chooses.
The policy chooses among all ids that have logged in as the type, and a
chosen instance without a connection is passed over. So a broadcast reaches
exactly the instances that are there, and another message reaches one of them
when the one that is chosen is there.
-/

namespace GlobalServer

open Bytes AppHeadFrame

namespace SeverInstanceMgr

section
variable (config : Option (List Policy)) (ops : List Op) (t : UInt32)

def loginSet : List (Int × Unit) :=
  ops.foldl (fun l op => match op with
    | .login t' i _ => if t' = t ∧ Accepts config t' i then OrdMap.insert i () l else l
    | .logout _ => l) []

/-- The ids that have logged in as the type, in ascending order. -/
def loginIds : List Int := (loginSet config ops t).map Prod.fst

theorem loginSet_concat (op : Op) : loginSet config (ops ++ [op]) t = match op with
    | .login t' i _ => if t' = t ∧ Accepts config t' i then OrdMap.insert i () (loginSet config ops t) else loginSet config ops t
    | .logout _ => loginSet config ops t := by
  simp [loginSet]

theorem sorted_loginSet : OrdMap.Sorted (loginSet config ops t) := by
  induction ops using List.reverseRecOn with
  | nil => exact OrdMap.sorted_nil
  | append_singleton ops op ih =>
    rw [loginSet_concat]
    cases op with
    | login t' i fd =>
      simp only
      split
      · exact OrdMap.sorted_insert ih
      · exact ih
    | logout fd => exact ih

theorem mem_loginSet (j : Int) : (j, ()) ∈ loginSet config ops t ↔ LoggedIn config ops t j := by
  induction ops using List.reverseRecOn with
  | nil => simp [loginSet, LoggedIn, Entered]
  | append_singleton ops op ih =>
    rw [loginSet_concat]
    cases op with
    | login t' i fd =>
      by_cases ha : Accepts config t' i
      · rw [loggedIn_login ha, ← ih]
        by_cases ht : t' = t
        · subst ht
          simp [ha, OrdMap.mem_insert_iff (sorted_loginSet config ops t'), or_comm]
        · simp [ht, Ne.symm ht]
      · rw [loggedIn_other, ← ih]
        · simp [ha]
        · rintro _ _ _ ⟨⟩
          exact ha
    | logout fd =>
      rw [loggedIn_other, ← ih]
      rintro _ _ _ ⟨⟩

theorem mem_loginIds (j : Int) : j ∈ loginIds config ops t ↔ LoggedIn config ops t j := by
  rw [← mem_loginSet, loginIds, OrdMap.mem_keys]

theorem loginIds_lt : (loginIds config ops t).Pairwise (· < ·) := List.pairwise_map.mpr (sorted_loginSet config ops t)

end

section
variable {config : Option (List Policy)} {ops : List Op} {t : UInt32}

theorem routerPolicy_loginIds (hn : NoCollision config ops [(t, 0)]) {p : Policy} (hp : getPolicy config t = some p)
    (uid : UInt64)
    (b : Bool) : (after config ops).routerPolicy uid t b [] = choose p.policy uid b (loginIds config ops t) [] := by
  obtain ⟨all, hmem, hlt, hr⟩ := routerPolicy_after hn
  have hall : all = loginIds config ops t :=
    List.Pairwise.eq_of_mem_iff hlt (loginIds_lt config ops t) fun j => (hmem j).trans (mem_loginIds config ops t j).symm
  rw [hr, hp, hall]

/-- The instance has logged in and its connection has not ended since. -/
def Online (config : Option (List Policy)) (ops : List Op) (t : UInt32) (i : Int) : Prop := fdOf config ops t i ≠ 0

instance (config : Option (List Policy)) (ops : List Op) (t : UInt32) (i : Int) : Decidable (Online config ops t i) :=
  inferInstanceAs (Decidable (_ ≠ _))

theorem Online.loggedIn {i : Int} (h : Online config ops t i) : LoggedIn config ops t i := ⟨_, fdOf_entered h⟩

/-- Each logout comes when at most one instance is there with its descriptor. -/
def LogoutsSingle (config : Option (List Policy)) (ops : List Op) : Prop :=
  ∀ h₁ fd h₂, ops = h₁ ++ .logout fd :: h₂ → fd ≠ 0 → AtMostOne config h₁ fd

theorem getFd_of_loggedIn (hn : NoCollision config ops []) (hs : LogoutsSingle config ops) {i : Int}
    (h : LoggedIn config ops t i) :
    (after config ops).getFdByTypeId t i = fdOf config ops t i := by
  obtain ⟨fd, hen⟩ := h
  exact lawful_of_atMostOne hn hs t i (hn.ask (by simpa using hen.mem_names))

end

end SeverInstanceMgr

open SeverInstanceMgr

/-! ## The destinations -/

section
variable (config : Option (List Policy)) (ops : List Op) (t : UInt32)

/-- Every instance of the type that is there is a destination once, and nobody else is. -/
def ToAllOnline (l : List (Dest × Int)) : Prop :=
  l.Nodup ∧ ∀ d, d ∈ l ↔ ∃ i, Online config ops t i ∧ d = (.inst t i, fdOf config ops t i)

/-- One instance of the type that is there is the only destination. -/
def ToOneOnline (l : List (Dest × Int)) : Prop := ∃ i, Online config ops t i ∧ l = [(.inst t i, fdOf config ops t i)]

/-- The id that a policy takes from the ids that have logged in. -/
def picked (policy : UInt32) (uid : UInt64) : Option Int :=
  if policy = POLICY_RANDOM then (loginIds config ops t).head?
  else if policy = POLICY_MOD then (loginIds config ops t)[uid.toNat % (loginIds config ops t).length]?
  else none

end

section
variable {config : Option (List Policy)} {ops : List Op} {t : UInt32} {r : RouterApplication}

theorem instDests_eq (hr : r.severInstanceMgr = after config ops) (hn : NoCollision config ops [])
    (hs : LogoutsSingle config ops)
    {ids : List Int} (h : ∀ i ∈ ids, LoggedIn config ops t i) :
    r.instDests t ids = (ids.filter fun i => Online config ops t i).map fun i => (.inst t i, fdOf config ops t i) := by
  have hfd : ids.map (fun i => (Dest.inst t i, r.severInstanceMgr.getFdByTypeId t i)) =
      ids.map fun i => (Dest.inst t i, fdOf config ops t i) :=
    List.map_congr_left fun i hi => by rw [hr, getFd_of_loggedIn hn hs (h i hi)]
  rw [RouterApplication.instDests, hfd, List.filter_map]
  rfl

theorem instDests_all (hr : r.severInstanceMgr = after config ops) (hn : NoCollision config ops [])
    (hs : LogoutsSingle config ops) :
    ToAllOnline config ops t (r.instDests t (loginIds config ops t)) := by
  rw [instDests_eq hr hn hs fun i hi => (mem_loginIds config ops t i).mp hi]
  constructor
  · refine List.Nodup.map ?_ (((loginIds_lt config ops t).imp fun h => ne_of_lt h).filter _)
    intro i j hij
    simpa using (Prod.mk.inj hij).1
  · intro d
    simp only [List.mem_map, List.mem_filter, mem_loginIds, decide_eq_true_eq]
    constructor
    · rintro ⟨i, ⟨-, hi⟩, rfl⟩
      exact ⟨i, hi, rfl⟩
    · rintro ⟨i, hi, rfl⟩
      exact ⟨i, ⟨hi.loggedIn, hi⟩, rfl⟩

theorem instDests_one (hr : r.severInstanceMgr = after config ops) (hn : NoCollision config ops [])
    (hs : LogoutsSingle config ops)
    {i : Int} (h : LoggedIn config ops t i) : ToOneOnline config ops t (r.instDests t [i]) ↔
    Online config ops t i := by
  rw [instDests_eq hr hn hs (by simpa using h)]
  constructor
  · rintro ⟨j, hj, he⟩
    by_contra hi
    simp [hi] at he
  · intro hi
    exact ⟨i, hi, by simp [hi]⟩

theorem mem_picked {policy : UInt32} {uid : UInt64} {i : Int} (h : picked config ops t policy uid = some i) :
    LoggedIn config ops t i := by
  rw [← mem_loginIds]
  unfold picked at h
  split at h
  · exact List.mem_of_mem_head? h
  · split at h
    · exact List.mem_of_getElem? h
    · cases h

theorem choose_picked {policy : UInt32} (hpol : policy = POLICY_RANDOM ∨ policy = POLICY_MOD) (uid : UInt64) :
    choose policy uid false (loginIds config ops t) [] = (picked config ops t policy uid).toList := by
  unfold choose picked
  by_cases h0 : loginIds config ops t = []
  · simp [h0]
  · rcases hpol with rfl | rfl
    · cases hl : loginIds config ops t with
      | nil => exact absurd hl h0
      | cons i l => simp
    · simp [h0, POLICY_RANDOM, POLICY_MOD]

theorem choose_broadcast {policy : UInt32} {b : Bool} (h : b = true ∨ policy = POLICY_BROADCAST) (uid : UInt64)
    (ids : List Int) :
    choose policy uid b ids [] = ids := by
  unfold choose
  rcases h with rfl | rfl
  · by_cases h0 : ids = []
    · simp [h0]
    · simp [h0]
  · by_cases h0 : ids = []
    · simp [h0]
    · by_cases hb : b = true
      · simp [h0, hb]
      · simp [h0, hb, POLICY_RANDOM, POLICY_MOD, POLICY_BROADCAST]

end

/-! ## Deliveries -/

/-- The block has a message that a connection of the router has brought, for whatever instance of a type in its
own zone. -/
structure ForType (r : RouterApplication) (container : List Int) (fd : Int) (mem : List UInt8)
    (frame : AppHeadFrame) : Prop where
  connected : fd ∈ container
  shown : frame = (ofBytes mem).n2h
  cmd : frame.cmd ∉ baseCmds
  zone : (frame.dstZone.toNat : Int) = r.serverZone
  inst : frame.dstInstId = 0

/-- A broadcast goes to all the instances that are there, any other message to one of them. -/
def Delivered (config : Option (List Policy)) (ops : List Op) (policy : UInt32) (frame : AppHeadFrame)
    (l : List (Dest × Int)) : Prop :=
  if frame.isBroadcast ≠ 0 ∨ policy = POLICY_BROADCAST then ToAllOnline config ops frame.dstSvrType l
  else ToOneOnline config ops frame.dstSvrType l

/-- Whom the router sends a message on to. -/
def sentTo (r : RouterApplication) (container : List Int) (fd : Int) (mem : List UInt8) : List (Dest × Int) :=
  (consumMsg container (r.onProc 0) fd mem).sends.map fun s => (s.dest, s.fd)

section
variable {config : Option (List Policy)} {ops : List Op} {r : RouterApplication} {container : List Int} {fd : Int}
  {mem : List UInt8} {frame : AppHeadFrame} {p : Policy}

theorem sentTo_eq (h : ForType r container fd mem frame) : sentTo r container fd mem =
    r.instDests frame.dstSvrType
      (r.severInstanceMgr.routerPolicy frame.userid frame.dstSvrType (decide (frame.isBroadcast ≠ 0)) []) := by
  unfold sentTo
  rw [RouterApplication.consumMsg_sends, if_pos h.connected, ← h.shown]
  simp [RouterApplication.dests, RouterApplication.sendsTo, h.cmd, h.zone, h.inst, Function.comp_def]

/-- In a state of the registry reached with keys of their own and single logouts, for a type with an instance
that is there: a message is delivered as its policy says if and only if it is a broadcast or the id picked from
all that have logged in is that of an instance that is there. -/
theorem delivered_iff (hr : r.severInstanceMgr = after config ops) (hn : NoCollision config ops [])
    (hs : LogoutsSingle config ops)
    (h : ForType r container fd mem frame) (hp : getPolicy config frame.dstSvrType = some p)
    (hpol : p.policy = POLICY_RANDOM ∨ p.policy = POLICY_MOD ∨ p.policy = POLICY_BROADCAST)
    (hon : ∃ i, Online config ops frame.dstSvrType i) :
    Delivered config ops p.policy frame (sentTo r container fd mem) ↔
      frame.isBroadcast ≠ 0 ∨ p.policy = POLICY_BROADCAST ∨
        ∃ i, picked config ops frame.dstSvrType p.policy frame.userid = some i ∧
        Online config ops frame.dstSvrType i := by
  obtain ⟨i₀, hi₀⟩ := hon
  have hname : (frame.dstSvrType, (0 : Int)) ∈ names config ops := mem_names.mpr ⟨i₀, hi₀.loggedIn, Or.inl rfl⟩
  have hrp := routerPolicy_loginIds (hn.ask (by simpa using hname)) hp frame.userid (decide (frame.isBroadcast ≠ 0))
  rw [sentTo_eq h, hr, hrp, ← or_assoc]
  unfold Delivered
  by_cases hb : frame.isBroadcast ≠ 0 ∨ p.policy = POLICY_BROADCAST
  · rw [if_pos hb, choose_broadcast (by simpa using hb)]
    exact iff_of_true (instDests_all hr hn hs) (Or.inl hb)
  · obtain ⟨hb0, hbp⟩ := not_or.mp hb
    have hrm : p.policy = POLICY_RANDOM ∨ p.policy = POLICY_MOD := by
      rcases hpol with hp' | hp' | hp'
      · exact Or.inl hp'
      · exact Or.inr hp'
      · exact absurd hp' hbp
    rw [if_neg hb, decide_eq_false hb0, choose_picked hrm]
    cases hpk : picked config ops frame.dstSvrType p.policy frame.userid with
    | none =>
      simp [hb, RouterApplication.instDests, ToOneOnline]
    | some i =>
      simp only [Option.toList_some, hb, false_or]
      rw [instDests_one hr hn hs (mem_picked hpk)]
      simp

end

/-- Two instances of the type 1 log in, and one of them leaves. -/
def oneLeaves (i : Int) : List Op :=
  [.login 1 7 (M_TCP_FD_FLAG + 7), .login 1 8 (M_TCP_FD_FLAG + 8), .logout (M_TCP_FD_FLAG + i)]

/-- The router after that. -/
def oneLeft (i : Int) : RouterApplication where
  serverZone := 1
  severInstanceMgr := after twoTypes (oneLeaves i)
  transferInfoVec := []
  netIoHandler := { tcpSocketContainer := [M_TCP_FD_FLAG + 5, M_TCP_FD_FLAG + 7, M_TCP_FD_FLAG + 8], tcpConnectorContainer := [] }

/-- A message for the type 1, which has the policy `RANDOM`. -/
def toAny : List UInt8 := ({ dstZone := 1, dstSvrType := 1, cmd := 100 } : AppHeadFrame).h2n.toBytes

theorem delivered_one : Delivered twoTypes (oneLeaves 8) POLICY_RANDOM (ofBytes toAny).n2h
    (sentTo (oneLeft 8) [M_TCP_FD_FLAG + 5] (M_TCP_FD_FLAG + 5) toAny) := by
  have hfor : ForType (oneLeft 8) [M_TCP_FD_FLAG + 5] (M_TCP_FD_FLAG + 5) toAny (ofBytes toAny).n2h :=
    ⟨by simp, rfl, by decide +kernel, by decide +kernel, by decide +kernel⟩
  have hsingle : LogoutsSingle twoTypes (oneLeaves 8) := by
    intro h₁ fd h₂ he h0
    have hone : h₁ = [.login 1 7 (M_TCP_FD_FLAG + 7), .login 1 8 (M_TCP_FD_FLAG + 8)] ∧ fd = M_TCP_FD_FLAG + 8 := by
      rcases h₁ with _ | ⟨a, _ | ⟨b, _ | ⟨c, h₁⟩⟩⟩
      · simp [oneLeaves] at he
      · simp [oneLeaves] at he
      · simp only [oneLeaves, List.cons_append, List.nil_append, List.cons.injEq, Op.logout.injEq] at he
        simp [← he.1, ← he.2.1, ← he.2.2.1]
      · simp [oneLeaves] at he
    obtain ⟨rfl, rfl⟩ := hone
    intro t i t' i' hi hi'
    have hat : ∀ t i, fdOf twoTypes [.login 1 7 (M_TCP_FD_FLAG + 7),
      .login 1 8 (M_TCP_FD_FLAG + 8)] t i = M_TCP_FD_FLAG + 8 →
        (t, i) = (1, 8) := by
      intro t i hi
      simp only [fdOf, fdOfStep, List.foldl_cons, List.foldl_nil, M_TCP_FD_FLAG] at hi
      split at hi
      · rename_i hc
        rw [← hc.1, ← hc.2.1]
      · split at hi <;> omega
    rw [hat t i hi, hat t' i' hi']
  have hshown : (ofBytes toAny).n2h = { dstZone := 1, dstSvrType := 1, cmd := 100 } := by decide +kernel
  have hiff := delivered_iff (p := ⟨1, POLICY_RANDOM⟩) rfl (noCollision_of_small (by decide +kernel)) hsingle hfor (by rw [hshown]; rfl)
    (Or.inl rfl) ⟨7, by rw [hshown]; decide +kernel⟩
  exact hiff.mpr (Or.inr (Or.inr ⟨7, by rw [hshown]; decide +kernel, by rw [hshown]; decide +kernel⟩))

/-- The instance 7 has left, and is picked before the instance 8, which is there. -/
theorem picked_left : Online twoTypes (oneLeaves 7) 1 8 ∧
    ¬ Delivered twoTypes (oneLeaves 7) POLICY_RANDOM (ofBytes toAny).n2h
    (sentTo (oneLeft 7) [M_TCP_FD_FLAG + 5] (M_TCP_FD_FLAG + 5) toAny) := by
  have hshown : (ofBytes toAny).n2h = { dstZone := 1, dstSvrType := 1, cmd := 100 } := by decide +kernel
  have hsent : sentTo (oneLeft 7) [M_TCP_FD_FLAG + 5] (M_TCP_FD_FLAG + 5) toAny = [] := by decide +kernel
  refine ⟨by decide +kernel, fun h => ?_⟩
  rw [hshown, hsent] at h
  obtain ⟨i, -, hi⟩ : ToOneOnline twoTypes (oneLeaves 7) 1 [] := h
  cases hi

end GlobalServer
