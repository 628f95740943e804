import GlobalServer.Router.Policies
import GlobalServer.Zone.Routing

/-!
# The destinations of one message

The instances of a type are in a set, and an id that a server registers with is
an `int32_t`. So a message goes to no server twice: the keys that it goes to
are different ones.
-/

namespace GlobalServer.Zone

open Bytes SeverInstanceMgr SvrInstInfoContainer

variable {ι κ : Type} {z : Zone ι κ}

/-- The ids of every `InstContainer` are in order, and are `int32_t`. -/
def SetsOk (m : SeverInstanceMgr) : Prop :=
  ∀ a, OrdMap.Sorted (m.info a).instSet ∧ ∀ j ∈ (m.info a).instSet.map Prod.fst, i32 j = j

theorem i32_i32 (n : Int) : i32 (i32 n) = i32 n := by
  unfold i32
  omega

theorem calcTypeId_inj {t : UInt32} {i j : Int} (hi : i32 i = i) (hj : i32 j = j) (h : calcTypeId t i = calcTypeId t j) :
    i = j := by
  unfold calcTypeId at h
  unfold i32 at h hi hj
  omega

section
variable {m : SeverInstanceMgr}

theorem SetsOk.modify (h : SetsOk m) (typeInst fd : Int) (online : Bool) : SetsOk (m.modify typeInst fd online) := h

theorem SetsOk.insertInst (h : SetsOk m) (a : Nat) {i : Int} (hi : i32 i = i) : SetsOk (m.insertInst a i) := by
  intro b
  obtain ⟨hs, hr⟩ := h b
  by_cases hb : b = a
  · subst hb
    have hinfo : ((m.insertInst b i).info b).instSet = OrdMap.insert i () (m.info b).instSet := by
      simp [SeverInstanceMgr.insertInst]
    rw [hinfo]
    refine ⟨OrdMap.sorted_insert hs, ?_⟩
    intro j hj
    rcases (OrdMap.mem_insert_iff hs).mp (OrdMap.mem_keys.mp hj) with rfl | hj
    · exact hi
    · exact hr j (OrdMap.mem_keys.mpr hj)
  · simpa [SeverInstanceMgr.insertInst, hb] using h b

theorem SetsOk.basic (h : SetsOk m) (hk : m.infoContainer.Keyed) {t : UInt32} {p : Policy} {m' : SeverInstanceMgr}
    {x : SvrInstInfo} (hb : m.basic t p = some (m', x)) : SetsOk m' := by
  obtain ⟨m₁, x₁, hb₁, -, -, -, hcase⟩ := basic_spec hk t p
  cases hb.symm.trans hb₁
  rcases hcase with rfl | ⟨-, -, hinfo, -, -⟩
  · exact h
  · intro a
    rw [hinfo]
    by_cases ha : a = m.infoTop
    · subst ha
      simp [OrdMap.sorted_nil]
    · simpa [ha] using h a

theorem SetsOk.login (h : SetsOk m) (hk : m.infoContainer.Keyed) (t : UInt32) {i : Int} (hi : i32 i = i) (fd : Int) :
    SetsOk (m.loginInstance t i fd).1 := by
  rcases login_spec hk t i fd with ⟨-, p, -, he⟩ | ⟨-, he⟩
  · generalize (m.loginInstance t i fd).1 = m' at he ⊢
    cases he with
    | again hb hf => exact (h.basic hk hb).modify _ _ _
    | first hb hf hl hfind => exact (h.basic hk hb).insertInst _ hi
  · rw [he]
    exact h

theorem SetsOk.logout (h : SetsOk m) (fd : Int) : SetsOk (m.logoutInstance fd) := by
  rcases logout_spec m fd with ⟨-, he⟩ | ⟨-, x, -, -, he⟩
  · rw [he]
    exact h
  · rw [he]
    exact h.modify _ _ _

theorem SetsOk.routerPolicy (h : SetsOk m) (uid : UInt64) (t : UInt32) (b : Bool) :
    (m.routerPolicy uid t b []).Nodup ∧ ∀ j ∈ m.routerPolicy uid t b [], i32 j = j := by
  unfold SeverInstanceMgr.routerPolicy
  split
  · simp
  · next x hx =>
    obtain ⟨hs, hr⟩ := h x.info
    refine ⟨?_, fun j hj => hr j (mem_choose hj)⟩
    have hall := OrdMap.nodup_keys hs
    generalize ((m.info x.info).instSet.map Prod.fst) = all at hall
    unfold choose
    split
    · exact List.nodup_nil
    · split
      · exact hall
      · split
        · simpa using hall.sublist (List.take_sublist 1 all)
        · split
          · cases all[uid.toNat % all.length]? <;> simp
          · split
            · exact hall
            · exact List.nodup_nil

end

/-- The key that a message goes to. -/
def destKey : Dest × Int → Option Int
  | (.inst t id, _) => some (calcTypeId t id)
  | (.transfer, _) => none

theorem instDests_keys {r : RouterApplication} {t : UInt32} {ids : List Int} (hn : ids.Nodup) (hr : ∀ j ∈ ids, i32 j = j) :
    ((r.instDests t ids).filterMap destKey).Nodup := by
  have hsub : ((r.instDests t ids).filterMap destKey).Sublist (ids.map (calcTypeId t)) := by
    have := (List.filter_sublist (p := fun d : Dest × Int => decide (d.2 ≠ 0))
      (l := ids.map fun id => (Dest.inst t id, r.severInstanceMgr.getFdByTypeId t id))).filterMap destKey
    simpa [RouterApplication.instDests, List.filterMap_map, Function.comp_def, destKey, List.filterMap_eq_map] using this
  exact (hn.map_on fun i hi j hj he => calcTypeId_inj (hr i hi) (hr j hj) he).sublist hsub

theorem dests_keys {r : Router} (h : SetsOk r.severInstanceMgr) (frame : AppHeadFrame) :
    ((r.dests frame).filterMap destKey).Nodup := by
  unfold Router.dests RouterApplication.dests
  split
  · exact List.nodup_nil
  · split
    · split
      · refine instDests_keys (List.nodup_singleton _) ?_
        intro j hj
        rw [List.mem_singleton.mp hj, i32_i32]
      · obtain ⟨hn, hr⟩ := h.routerPolicy frame.userid frame.dstSvrType (decide (frame.isBroadcast ≠ 0))
        exact instDests_keys hn hr
    · simp [List.filterMap_map, Function.comp_def, destKey]

theorem setsOk_onRegister {r : Router} (h : SetsOk r.severInstanceMgr) (hk : r.severInstanceMgr.infoContainer.Keyed)
    (fd t : Int) {id : Int} (hid : i32 id = id) (zone : Int) : SetsOk (r.onRegister fd t id zone).1.severInstanceMgr := by
  unfold Router.onRegister
  split
  · exact h
  · exact h.login hk _ hid fd

theorem setsOk_setRouter [DecidableEq κ] (hs : ∀ j, SetsOk (z.router j).severInstanceMgr) {j : κ} {r : Router}
    (hr : SetsOk r.severInstanceMgr) : ∀ j', SetsOk ((z.setRouter j r).router j').severInstanceMgr := by
  intro j'
  by_cases hj : j' = j
  · subst hj
    simpa using hr
  · simpa [hj] using hs j'

end GlobalServer.Zone
