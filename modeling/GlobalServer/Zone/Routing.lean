import GlobalServer.Router.Registry
import GlobalServer.Zone.Servers

/-!
# Where messages come from and go to

In every run in which the servers leave the base commands to the registration,
a router hears of the end of each connection, and of that of the last one with
a descriptor before the next one comes with it, an entry of a router's table
with a descriptor is that of the server at the other end. So a message reaches
only a server with the key that it is for, as it was sent.
-/

namespace GlobalServer.Zone

open Bytes SeverInstanceMgr SvrInstInfoContainer

variable {ι κ : Type} {c : ι → App.Config} {z : Zone ι κ}

/-- The key of a server in the table of a router. -/
def key (c : App.Config) : Int := calcTypeId c.serverType (i32 c.instanceId.toNat)

/-- The server `i` has sent the message. -/
def Gave (trace : ι → List Entry) (i : ι) (p : Packet) : Prop := ∃ x ∈ trace i, x.gave = some p

/-- The message is for an instance with the key of the server: the one it names, when it names one. -/
def Addressed (c : App.Config) (frame : AppHeadFrame) : Prop :=
  ∃ id : Int, calcTypeId frame.dstSvrType id = key c ∧ (frame.dstInstId ≠ 0 → id = i32 frame.dstInstId.toNat)

/-- What the server `i` sends. -/
inductive Goes (c : ι → App.Config) (trace : ι → List Entry) (i : ι) (p : Packet) : Prop
  | message (gave : Gave trace i p) (cmd : p.frame.cmd ∉ baseCmds)
  | regist (cmd : p.frame.cmd = CMD_REGISTER_SERVER_REQ)
      (body : ∃ zone, p.body = .registerServerReq (i32 (c i).serverType.toNat) (i32 (c i).instanceId.toNat) zone)

/-- What comes to the server `i`. -/
inductive Comes (c : ι → App.Config) (trace : ι → List Entry) (i : ι) (p : Packet) : Prop
  | message (via : p.via ≠ none) (gave : ∃ i', Gave trace i' p) (addressed : Addressed (c i) p.frame)
  | registered (via : p.via = none) (body : ∃ code, p.body = .registerServerRsp code)

theorem Gave.mono {trace trace' : ι → List Entry} {i : ι} {p : Packet} (h : Gave trace i p)
    (ht : ∀ i, trace i ⊆ trace' i) : Gave trace' i p := by
  obtain ⟨x, hx, hp⟩ := h
  exact ⟨x, ht i hx, hp⟩

theorem Goes.mono {trace trace' : ι → List Entry} {i : ι} {p : Packet} (h : Goes c trace i p)
    (ht : ∀ i, trace i ⊆ trace' i) : Goes c trace' i p := by
  cases h with
  | message hg hc => exact .message (hg.mono ht) hc
  | regist hc hb => exact .regist hc hb

theorem Comes.mono {trace trace' : ι → List Entry} {i : ι} {p : Packet} (h : Comes c trace i p)
    (ht : ∀ i, trace i ⊆ trace' i) : Comes c trace' i p := by
  cases h with
  | message hv hg ha =>
    obtain ⟨i', hg⟩ := hg
    exact .message hv ⟨i', hg.mono ht⟩ ha
  | registered hv hb => exact .registered hv hb

/-- The event of the entry has sent the message. -/
structure Entry.Sends (x : Entry) (p : Packet) : Prop where
  via : p.via ≠ none
  out : ∃ fd, x.event.out = some (fd, p.frame)
  body : ∃ data, p.body = .bytes data ∧ data.length = p.frame.cmdLength.toNat

structure Inv (c : ι → App.Config) (z : Zone ι κ) : Prop where
  runs : ∀ i, App.Run (fun _ _ _ => True) (c i) ((z.trace i).map Entry.event) (z.app i)
  gave : ∀ i, ∀ x ∈ z.trace i, ∀ p, x.gave = some p → x.Sends p
  took : ∀ i, ∀ x ∈ z.trace i, ∀ k p, x.took = some (k, p) →
    Comes c z.trace i p ∧ ∃ fd target, x.event = .dispatch fd p.frame target
  top : ∀ k l, z.link k = some l → k < z.linkTop
  appTable : ∀ i fd k, z.appTable i fd = some k → ∃ l, z.link k = some l ∧ l.server = i
  table : ∀ j fd k, (z.router j).table fd = some k → checkIsTcpFd fd = true ∧
    ∃ l, z.link k = some l ∧ l.router = j ∧ l.routerSide = .between fd
  opened : ∀ k l fd, z.link k = some l → l.routerSide = .between fd → (z.router l.router).table fd = some k
  keyed : ∀ j, (z.router j).severInstanceMgr.infoContainer.Keyed
  registry : ∀ j x, (z.router j).severInstanceMgr.fdAt x ≠ 0 →
    ∃ k l, (z.router j).table ((z.router j).severInstanceMgr.fdAt x) = some k ∧ z.link k = some l ∧ key (c l.server) = x
  up : ∀ k l, z.link k = some l → ∀ p ∈ l.up, Goes c z.trace l.server p
  down : ∀ k l, z.link k = some l → ∀ p ∈ l.down, Comes c z.trace l.server p

/-! ## What the operations are made of -/

/-- The connection is the same but for the messages and the server's side. -/
structure Link.SameEnds (l l' : Link ι κ) : Prop where
  server : l'.server = l.server
  router : l'.router = l.router
  routerSide : l'.routerSide = l.routerSide

namespace Inv

theorem link_update {k : Nat} {l l' : Link ι κ} (hl : z.link k = some l) (he : l.SameEnds l') {k' : Nat}
    {m : Link ι κ} (hm : z.link k' = some m) :
    ∃ m', Function.update z.link k (some l') k' = some m' ∧ m.SameEnds m' := by
  by_cases hk : k' = k
  · subst hk
    obtain rfl := Option.some.inj (hm.symm.trans hl)
    exact ⟨l', by simp, he⟩
  · exact ⟨m, by simpa [hk] using hm, ⟨rfl, rfl, rfl⟩⟩

theorem setLink (h : Inv c z) {k : Nat} {l n : Link ι κ} (hl : z.link k = some l) (he : l.SameEnds n)
    (hup : ∀ p ∈ n.up, Goes c z.trace l.server p) (hdown : ∀ p ∈ n.down, Comes c z.trace l.server p) :
    Inv c (z.setLink k n) := by
  have hlink : ∀ k' m', (z.setLink k n).link k' = some m' → (k' = k ∧ m' = n) ∨ z.link k' = some m' := by
    intro k' m' hm
    by_cases hk : k' = k
    · subst hk
      exact .inl ⟨rfl, by simpa using hm.symm⟩
    · exact .inr (by simpa [hk] using hm)
  refine ⟨h.runs, h.gave, h.took, ?_, ?_, ?_, ?_, h.keyed, ?_, ?_, ?_⟩
  · intro k' m' hm
    rcases hlink k' m' hm with ⟨rfl, -⟩ | hm
    · exact h.top _ l hl
    · exact h.top _ _ hm
  · intro i fd k' ht
    obtain ⟨m, hm, hi⟩ := h.appTable i fd k' ht
    obtain ⟨m', hm', he'⟩ := link_update hl he hm
    exact ⟨m', hm', he'.server.trans hi⟩
  · intro j fd k' ht
    obtain ⟨h0, m, hm, hj, hfd⟩ := h.table j fd k' ht
    obtain ⟨m', hm', he'⟩ := link_update hl he hm
    exact ⟨h0, m', hm', he'.router.trans hj, he'.routerSide.trans hfd⟩
  · intro k' m' fd hm hfd
    rcases hlink k' m' hm with ⟨rfl, rfl⟩ | hm
    · rw [he.router]
      exact h.opened k' l fd hl (he.routerSide ▸ hfd)
    · exact h.opened k' m' fd hm hfd
  · intro j x hx
    obtain ⟨k', m, ht, hm, hk⟩ := h.registry j x hx
    obtain ⟨m', hm', he'⟩ := link_update hl he hm
    exact ⟨k', m', ht, hm', by rw [he'.server]; exact hk⟩
  · intro k' m' hm p hp
    rcases hlink k' m' hm with ⟨rfl, rfl⟩ | hm
    · rw [he.server]
      exact hup p hp
    · exact h.up k' m' hm p hp
  · intro k' m' hm p hp
    rcases hlink k' m' hm with ⟨rfl, rfl⟩ | hm
    · rw [he.server]
      exact hdown p hp
    · exact h.down k' m' hm p hp

theorem push (h : Inv c z) {k : Nat} {f : Link ι κ → Link ι κ} (he : ∀ l, Link.SameEnds l (f l))
    (hup : ∀ l, z.link k = some l → ∀ p ∈ (f l).up, Goes c z.trace l.server p)
    (hdown : ∀ l, z.link k = some l → ∀ p ∈ (f l).down, Comes c z.trace l.server p) : Inv c (z.push k f) := by
  unfold Zone.push
  split
  · exact h
  · next l hl => exact h.setLink hl (he l) (hup l hl) (hdown l hl)

theorem withNext (h : Inv c z) (n : Nat) : Inv c { z with next := n } :=
  ⟨h.runs, h.gave, h.took, h.top, h.appTable, h.table, h.opened, h.keyed, h.registry, h.up, h.down⟩

theorem send (h : Inv c z) {i : ι} {fd : Int} {k : Nat} (ht : z.appTable i fd = some k) {frame : AppHeadFrame}
    {body : Body} (hg : Goes c z.trace i (z.packet (some k) frame body)) : Inv c (z.send k frame body) := by
  have hpush : Inv c (z.push k (Link.pushUp (z.packet (some k) frame body))) := by
    refine h.push (fun l => ⟨rfl, rfl, rfl⟩) ?_ fun l hl => h.down k l hl
    intro l hl p hp
    obtain ⟨l', hl', hi⟩ := h.appTable i fd k ht
    obtain rfl := Option.some.inj (hl.symm.trans hl')
    rcases List.mem_append.mp hp with hp | hp
    · exact h.up k l hl p hp
    · rw [List.mem_singleton.mp hp, hi]
      exact hg
  exact hpush.withNext _

theorem record [DecidableEq ι] (h : Inv c z) {i : ι} {x : Entry} {a : App} (hst : (z.app i).step x.event = some a)
    (hgave : ∀ p, x.gave = some p → x.Sends p)
    (htook : ∀ k p, x.took = some (k, p) → Comes c z.trace i p ∧ ∃ fd target, x.event = .dispatch fd p.frame target) :
    Inv c (z.record i x a) := by
  have hsub : ∀ i', z.trace i' ⊆ (z.record i x a).trace i' := by
    intro i'
    by_cases hi : i' = i
    · subst hi
      simp
    · simp [hi]
  have hmem : ∀ i', ∀ y ∈ (z.record i x a).trace i', y ∈ z.trace i' ∨ (i' = i ∧ y = x) := by
    intro i' y hy
    by_cases hi : i' = i
    · subst hi
      simpa using hy
    · exact .inl (by simpa [hi] using hy)
  refine ⟨?_, ?_, ?_, h.top, h.appTable, h.table, h.opened, h.keyed, h.registry, ?_, ?_⟩
  · intro i'
    by_cases hi : i' = i
    · subst hi
      have := Runs.Run.snoc (h.runs i') trivial hst
      simpa using this
    · simpa [hi] using h.runs i'
  · intro i' y hy p hp
    rcases hmem i' y hy with hy | ⟨rfl, rfl⟩
    · exact h.gave i' y hy p hp
    · exact hgave p hp
  · intro i' y hy k p hp
    rcases hmem i' y hy with hy | ⟨rfl, rfl⟩
    · obtain ⟨hc, hd⟩ := h.took i' y hy k p hp
      exact ⟨hc.mono hsub, hd⟩
    · obtain ⟨hc, hd⟩ := htook k p hp
      exact ⟨hc.mono hsub, hd⟩
  · intro k l hl p hp
    exact (h.up k l hl p hp).mono hsub
  · intro k l hl p hp
    exact (h.down k l hl p hp).mono hsub

/-! ## Forwarding -/

end Inv

/-- A router sends a message on to the instance it names, or to instances of the type, or out of the zone. -/
theorem mem_dests {r : Router} {frame : AppHeadFrame} {d : Dest × Int} (hd : d ∈ r.dests frame) :
    d.1 = .transfer ∨ ∃ id, d = (.inst frame.dstSvrType id, r.severInstanceMgr.fdAt (calcTypeId frame.dstSvrType id)) ∧
      r.severInstanceMgr.fdAt (calcTypeId frame.dstSvrType id) ≠ 0 ∧
      (frame.dstInstId ≠ 0 → id = i32 frame.dstInstId.toNat) := by
  have hinst : ∀ ids : List Int, d ∈ (r.application ⟨[], []⟩).instDests frame.dstSvrType ids →
      ∃ id ∈ ids, d = (.inst frame.dstSvrType id, r.severInstanceMgr.fdAt (calcTypeId frame.dstSvrType id)) ∧
        r.severInstanceMgr.fdAt (calcTypeId frame.dstSvrType id) ≠ 0 := by
    intro ids hd
    obtain ⟨hm, h0⟩ := List.mem_filter.mp hd
    obtain ⟨id, hid, rfl⟩ := List.mem_map.mp hm
    simp only [getFdByTypeId_eq, ne_eq, decide_eq_true_eq] at h0 ⊢
    exact ⟨id, hid, rfl, h0⟩
  unfold Router.dests RouterApplication.dests at hd
  split at hd
  · cases hd
  · split at hd
    · split at hd
      · obtain ⟨id, hid, he, h0⟩ := hinst _ hd
        exact .inr ⟨id, he, h0, fun _ => List.mem_singleton.mp hid⟩
      · next hn =>
        obtain ⟨id, hid, he, h0⟩ := hinst _ hd
        exact .inr ⟨id, he, h0, fun hne => absurd hne hn⟩
    · obtain ⟨fd, -, rfl⟩ := List.mem_map.mp hd
      exact .inl rfl

theorem register_base : CMD_REGISTER_SERVER_REQ ∈ baseCmds := by simp [baseCmds]

theorem dests_base {r : Router} {frame : AppHeadFrame} (h : frame.cmd ∈ baseCmds) : r.dests frame = [] := by
  simp [Router.dests, RouterApplication.dests, h]

theorem setLink_push (z : Zone ι κ) (k : Nat) (l : Link ι κ) (f : Link ι κ → Link ι κ) :
    (z.setLink k l).push k f = z.setLink k (f l) := by
  simp [push, Zone.setLink]

@[simp] theorem push_router (z : Zone ι κ) (k : Nat) (f : Link ι κ → Link ι κ) : (z.push k f).router = z.router := by
  unfold push
  split <;> rfl

@[simp] theorem push_trace (z : Zone ι κ) (k : Nat) (f : Link ι κ → Link ι κ) : (z.push k f).trace = z.trace := by
  unfold push
  split <;> rfl

@[simp] theorem hand_router (j : κ) (p : Packet) (z : Zone ι κ) (d : Dest × Int) : (hand j p z d).router = z.router := by
  unfold hand
  split
  · exact push_router z _ _
  · rfl

@[simp] theorem hand_trace (j : κ) (p : Packet) (z : Zone ι κ) (d : Dest × Int) : (hand j p z d).trace = z.trace := by
  unfold hand
  split
  · exact push_trace z _ _
  · rfl

namespace Inv

theorem hand (h : Inv c z) {j : κ} {p : Packet} (hv : p.via ≠ none) (hg : ∃ i, Gave z.trace i p) {d : Dest × Int}
    (hd : d ∈ (z.router j).dests p.frame) : Inv c (Zone.hand j p z d) := by
  unfold Zone.hand
  split
  · next t id k hdst ht =>
    refine h.push (fun l => ⟨rfl, rfl, rfl⟩) (fun l hl => h.up k l hl) ?_
    intro l hl q hq
    rcases List.mem_append.mp hq with hq | hq
    · exact h.down k l hl q hq
    · rw [List.mem_singleton.mp hq]
      rcases mem_dests hd with htr | ⟨id', rfl, h0, hid⟩
      · rw [hdst] at htr
        cases htr
      · obtain ⟨k', l', ht', hl', hkey⟩ := h.registry j _ h0
        obtain rfl : k = k' := Option.some.inj (ht.symm.trans ht')
        obtain rfl := Option.some.inj (hl.symm.trans hl')
        exact .message hv hg ⟨id', hkey.symm, hid⟩
  · exact h

theorem handAll {j : κ} {p : Packet} (hv : p.via ≠ none) :
    ∀ (ds : List (Dest × Int)) {z : Zone ι κ}, Inv c z → (∃ i, Gave z.trace i p) →
      (∀ d ∈ ds, d ∈ (z.router j).dests p.frame) → Inv c (ds.foldl (Zone.hand j p) z)
  | [], _, h, _, _ => h
  | d :: ds, z, h, hg, hd => by
    refine handAll hv ds (h.hand hv hg (hd d List.mem_cons_self)) (by simpa using hg) ?_
    intro d' hd'
    simpa using hd d' (List.mem_cons_of_mem d hd')

theorem forward (h : Inv c z) (j : κ) {i : ι} {p : Packet} (hg : Goes c z.trace i p) : Inv c (z.forward j p) := by
  cases hg with
  | message hg hc =>
    obtain ⟨x, hx, hp⟩ := hg
    exact handAll (h.gave i x hx p hp).via _ h ⟨i, x, hx, hp⟩ fun d hd => hd
  | regist hc hb =>
    have hbase : p.frame.cmd ∈ baseCmds := by
      rw [hc]
      exact register_base
    simpa [Zone.forward, dests_base hbase] using h

/-! ## The table of a router -/

variable [DecidableEq κ]

theorem setRouter (h : Inv c z) {j : κ} {r : Router} (htable : r.table = (z.router j).table)
    (hkeyed : r.severInstanceMgr.infoContainer.Keyed)
    (hreg : ∀ x, r.severInstanceMgr.fdAt x ≠ 0 →
      ∃ k l, r.table (r.severInstanceMgr.fdAt x) = some k ∧ z.link k = some l ∧ key (c l.server) = x) :
    Inv c (z.setRouter j r) := by
  have hsame : ∀ j', ((z.setRouter j r).router j').table = (z.router j').table := by
    intro j'
    by_cases hj : j' = j
    · subst hj
      simpa using htable
    · simp [hj]
  refine ⟨h.runs, h.gave, h.took, h.top, h.appTable, ?_, ?_, ?_, ?_, h.up, h.down⟩
  · intro j' fd k ht
    rw [hsame] at ht
    exact h.table j' fd k ht
  · intro k l fd hl hfd
    rw [hsame]
    exact h.opened k l fd hl hfd
  · intro j'
    by_cases hj : j' = j
    · subst hj
      simpa using hkeyed
    · simpa [hj] using h.keyed j'
  · intro j' x hx
    by_cases hj : j' = j
    · subst hj
      simp only [setRouter_router, Function.update_self] at hx ⊢
      exact hreg x hx
    · simp only [setRouter_router, Function.update_of_ne hj] at hx ⊢
      exact h.registry j' x hx

theorem login (h : Inv c z) {j : κ} {fd : Int} {k : Nat} {l : Link ι κ} (ht : (z.router j).table fd = some k)
    (hl : z.link k = some l) {t : UInt32} {id : Int} (hk : calcTypeId t id = key (c l.server)) :
    Inv c (z.setRouter j { z.router j with severInstanceMgr := ((z.router j).severInstanceMgr.loginInstance t id fd).1 }) := by
  rcases login_spec (h.keyed j) t id fd with ⟨-, p, -, he⟩ | ⟨-, he⟩
  · refine h.setRouter rfl (he.keyed (h.keyed j)) ?_
    intro x hx
    simp only [he.fdAt (h.keyed j)] at hx ⊢
    split at hx
    · next hxe =>
      rw [if_pos hxe]
      exact ⟨k, l, ht, hl, by rw [hxe, hk]⟩
    · next hxe =>
      rw [if_neg hxe]
      exact h.registry j x hx
  · rw [he]
    exact h.setRouter rfl (h.keyed j) (h.registry j)

/-- A router has processed the first or the last message of a connection. Its descriptor is in the table in between, and
the others are as they were. -/
theorem setSide (h : Inv c z) {k : Nat} {l : Link ι κ} (hl : z.link k = some l) {side : Side} {r : Router}
    (htable : ∀ fd k', r.table fd = some k' → checkIsTcpFd fd = true ∧
      (k' = k ∧ side = .between fd ∨ k' ≠ k ∧ (z.router l.router).table fd = some k'))
    (hopen : ∀ fd, side = .between fd → r.table fd = some k)
    (hkept : ∀ fd k', k' ≠ k → (z.router l.router).table fd = some k' → r.table fd = some k')
    (hkeyed : r.severInstanceMgr.infoContainer.Keyed)
    (hreg : ∀ x, r.severInstanceMgr.fdAt x ≠ 0 →
      ∃ k' m, r.table (r.severInstanceMgr.fdAt x) = some k' ∧ z.link k' = some m ∧ key (c m.server) = x) :
    Inv c ((z.setLink k { l with routerSide := side }).setRouter l.router r) := by
  have hback : ∀ k' m, (z.setLink k { l with routerSide := side }).link k' = some m →
      (k' = k ∧ m = { l with routerSide := side }) ∨ (k' ≠ k ∧ z.link k' = some m) := by
    intro k' m hm
    by_cases hk : k' = k
    · subst hk
      exact .inl ⟨rfl, by simpa using hm.symm⟩
    · exact .inr ⟨hk, by simpa [hk] using hm⟩
  have hserver : ∀ k' m, z.link k' = some m → ∃ m', (z.setLink k { l with routerSide := side }).link k' = some m' ∧
      m'.server = m.server := by
    intro k' m hm
    by_cases hk : k' = k
    · subst hk
      obtain rfl := Option.some.inj (hm.symm.trans hl)
      exact ⟨{ m with routerSide := side }, by simp, rfl⟩
    · exact ⟨m, by simpa [hk] using hm, rfl⟩
  refine ⟨h.runs, h.gave, h.took, ?_, ?_, ?_, ?_, ?_, ?_, ?_, ?_⟩
  · intro k' m hm
    rcases hback k' m hm with ⟨rfl, rfl⟩ | ⟨-, hm⟩
    · exact h.top _ l hl
    · exact h.top _ m hm
  · intro i fd k' ht
    obtain ⟨m, hm, hi⟩ := h.appTable i fd k' ht
    obtain ⟨m', hm', hs⟩ := hserver k' m hm
    exact ⟨m', hm', hs.trans hi⟩
  · intro j fd k' ht
    by_cases hj : j = l.router
    · subst hj
      rw [setRouter_router, Function.update_self] at ht
      obtain ⟨h0, ⟨rfl, hside⟩ | ⟨hne, hold⟩⟩ := htable fd k' ht
      · exact ⟨h0, { l with routerSide := side }, by simp, rfl, hside⟩
      · obtain ⟨-, m, hm, hr, hfd⟩ := h.table _ fd k' hold
        exact ⟨h0, m, by simpa [hne] using hm, hr, hfd⟩
    · rw [setRouter_router, Function.update_of_ne hj] at ht
      obtain ⟨h0, m, hm, hr, hfd⟩ := h.table j fd k' ht
      have hne : k' ≠ k := by
        rintro rfl
        obtain rfl := Option.some.inj (hm.symm.trans hl)
        exact hj hr.symm
      exact ⟨h0, m, by simpa [hne] using hm, hr, hfd⟩
  · intro k' m fd hm hfd
    rcases hback k' m hm with ⟨rfl, rfl⟩ | ⟨hne, hm⟩
    · rw [setRouter_router, Function.update_self]
      exact hopen fd hfd
    · have hold := h.opened k' m fd hm hfd
      by_cases hj : m.router = l.router
      · rw [hj] at hold ⊢
        rw [setRouter_router, Function.update_self]
        exact hkept fd k' hne hold
      · rw [setRouter_router, Function.update_of_ne hj]
        exact hold
  · intro j
    by_cases hj : j = l.router
    · subst hj
      simpa using hkeyed
    · simpa [hj] using h.keyed j
  · intro j x hx
    by_cases hj : j = l.router
    · subst hj
      simp only [setRouter_router, Function.update_self] at hx ⊢
      obtain ⟨k', m, ht, hm, hk⟩ := hreg x hx
      obtain ⟨m', hm', hs⟩ := hserver k' m hm
      exact ⟨k', m', ht, hm', hs ▸ hk⟩
    · simp only [setRouter_router, Function.update_of_ne hj] at hx ⊢
      obtain ⟨k', m, ht, hm, hk⟩ := h.registry j x hx
      obtain ⟨m', hm', hs⟩ := hserver k' m hm
      exact ⟨k', m', ht, hm', hs ▸ hk⟩
  · intro k' m hm p hp
    rcases hback k' m hm with ⟨rfl, rfl⟩ | ⟨-, hm⟩
    · exact h.up _ l hl p hp
    · exact h.up k' m hm p hp
  · intro k' m hm p hp
    rcases hback k' m hm with ⟨rfl, rfl⟩ | ⟨-, hm⟩
    · exact h.down _ l hl p hp
    · exact h.down k' m hm p hp

omit [DecidableEq κ] in
theorem out_registry (h : Inv c z) (j : κ) {fd : Int} (hfd : (z.router j).table fd ≠ none) :
    ((z.router j).out fd true).severInstanceMgr.infoContainer.Keyed ∧
      ∀ x, ((z.router j).out fd true).severInstanceMgr.fdAt x ≠ 0 →
        ∃ k l, ((z.router j).out fd true).table (((z.router j).out fd true).severInstanceMgr.fdAt x) = some k ∧
          z.link k = some l ∧ key (c l.server) = x := by
  rw [Router.out, if_neg hfd]
  -- an entry with another descriptor is where it was
  have hkept : ∀ x, (z.router j).severInstanceMgr.fdAt x ≠ 0 → (z.router j).severInstanceMgr.fdAt x ≠ fd →
      ∃ k l, KeyTable.erase (z.router j).table fd ((z.router j).severInstanceMgr.fdAt x) = some k ∧ z.link k = some l ∧
        key (c l.server) = x := by
    intro x hx hne
    obtain ⟨k, l, ht, hl, hk⟩ := h.registry j x hx
    exact ⟨k, l, by simpa [KeyTable.erase, hne] using ht, hl, hk⟩
  rcases logout_spec (z.router j).severInstanceMgr fd with ⟨hno, he⟩ | ⟨h0, y, hy, hyfd, he⟩
  · refine ⟨by simpa [he] using h.keyed j, ?_⟩
    intro x hx
    simp only [if_true, he] at hx ⊢
    refine hkept x hx ?_
    rintro rfl
    rcases hno with hno | hno
    · exact hx hno
    · obtain ⟨y, hy, -, hyfd⟩ := mem_of_fdAt (h.keyed j) hx
      exact hno y hy hyfd
  · have hyat : (z.router j).severInstanceMgr.fdAt y.typeInst = fd := (fdAt_of_mem (h.keyed j) hy).trans hyfd
    have hyk : (z.router j).severInstanceMgr.infoContainer.findType y.typeInst ≠ none := by
      rw [(findType_eq_some (h.keyed j)).mpr ⟨hy, rfl⟩]
      simp
    refine ⟨?_, ?_⟩
    · simp only [if_true, he]
      exact keyed_modify (h.keyed j) _ _ _
    · intro x hx
      simp only [if_true, he, fdAt_modify (h.keyed j) _ _ _ hyk] at hx ⊢
      split at hx
      · exact absurd rfl hx
      · next hxy =>
        rw [if_neg hxy]
        refine hkept x hx ?_
        intro hxfd
        -- both entries are those of the server at the other end
        obtain ⟨k, l, ht, hl, hk⟩ := h.registry j x hx
        obtain ⟨k', l', ht', hl', hk'⟩ := h.registry j y.typeInst (by rw [hyat]; exact h0)
        rw [hxfd] at ht
        rw [hyat] at ht'
        obtain rfl := Option.some.inj (ht.symm.trans ht')
        obtain rfl := Option.some.inj (hl.symm.trans hl')
        exact hxy (hk.symm.trans hk')

end Inv

/-! ## Runs -/

theorem ofInt_i32 (n : UInt32) : UInt32.ofInt (i32 n.toNat) = n := by
  apply UInt32.toNat_inj.mp
  have hn := n.toNat_lt
  simp only [UInt32.ofInt, UInt32.toNat_ofNat', i32]
  omega

/-- The base commands are sent by the registration only, and a router's transactions are not refused at the end of a
connection. It has processed this end before another connection comes with the descriptor. -/
def Allowed (z : Zone ι κ) : Op ι κ → Prop
  | .app _ e _ => ∀ out, e.out = some out → out.2.cmd ∉ baseCmds
  | .routerIn k fd => ∀ l, z.link k = some l → (z.router l.router).table fd = none
  | .routerOut _ handled => handled = true
  | _ => True

namespace Inv

theorem stepApp [DecidableEq ι] (h : Inv c z) {i : ι} {e : Event} {data : List UInt8}
    (hb : ∀ out, e.out = some out → out.2.cmd ∉ baseCmds) {z' : Zone ι κ} (hst : z.stepApp i e data = some z') : Inv c z' := by
  obtain ⟨a, ha, hst⟩ := Option.bind_eq_some_iff.mp hst
  split at hst
  · obtain ⟨-, hst⟩ := Option.ite_none_right_eq_some.mp hst
    obtain rfl := Option.some.inj hst
    exact h.record ha nofun nofun
  · next k frame hout =>
    obtain ⟨hlen, hst⟩ := Option.ite_none_right_eq_some.mp hst
    obtain rfl := Option.some.inj hst
    obtain ⟨out, ho, hk⟩ := Option.bind_eq_some_iff.mp hout
    obtain ⟨k', ht, hk⟩ := Option.map_eq_some_iff.mp hk
    obtain ⟨hk', hframe⟩ := Prod.mk.inj hk
    rw [hk'] at ht
    have hrec := h.record (x := ⟨e, none, some (z.packet (some k) frame (.bytes data))⟩) ha ?_ nofun
    · refine hrec.send ht (.message ⟨⟨e, none, some (z.packet (some k) frame (.bytes data))⟩, ?_, rfl⟩ (hframe ▸ hb out ho))
      simp
    · intro p hp
      obtain rfl := Option.some.inj hp
      exact ⟨by simp [packet], ⟨out.1, by rw [ho, ← hframe]; rfl⟩, data, rfl, hlen⟩

theorem stepRegist (h : Inv c z) {i : ι} {p : Nat} {fd : Int} {len : UInt32} {z' : Zone ι κ}
    (hst : z.stepRegist i p fd len = some z') : Inv c z' := by
  obtain ⟨k, ht, hst⟩ := Option.bind_eq_some_iff.mp hst
  obtain ⟨hrun, hst⟩ := Option.ite_none_right_eq_some.mp hst
  obtain rfl := Option.some.inj hst
  refine h.send ht (.regist rfl ⟨i32 ((z.app i).trans p).selfSvrZone.toNat, ?_⟩)
  obtain ⟨t, hk, rfl⟩ := Option.map_eq_some_iff.mp hrun
  obtain ⟨h1, h2⟩ := App.run_told (h.runs i) t.trans (App.running_Running hk)
  rw [← h1, ← h2]
  rfl

theorem stepDeliver [DecidableEq ι] (h : Inv c z) {k : Nat} {target : Option Nat} {z' : Zone ι κ}
    (hst : z.stepDeliver k target = some z') : Inv c z' := by
  obtain ⟨l, hl, hst⟩ := Option.bind_eq_some_iff.mp hst
  obtain ⟨fd, -, hst⟩ := Option.bind_eq_some_iff.mp hst
  obtain ⟨-, -, hst⟩ := Option.bind_eq_some_iff.mp hst
  split at hst
  · cases hst
  · next p down hd =>
    obtain ⟨a, ha, rfl⟩ := Option.map_eq_some_iff.mp hst
    have hp : Comes c z.trace l.server p := h.down k l hl p (by simp [hd])
    have hrec := h.record (x := ⟨.dispatch fd p.frame target, some (k, p), none⟩) ha nofun ?_
    · refine hrec.setLink hl ⟨rfl, rfl, rfl⟩ (hrec.up k l hl) ?_
      intro q hq
      exact hrec.down k l hl q (by simp [hd, show q ∈ down from hq])
    · intro k' q hq
      cases hq
      exact ⟨hp, fd, target, rfl⟩

theorem popUp (h : Inv c z) {k : Nat} {l : Link ι κ} (hl : z.link k = some l) {p : Packet} {up : List Packet}
    (hu : l.up = p :: up) : Inv c (z.setLink k { l with up }) := by
  refine h.setLink hl ⟨rfl, rfl, rfl⟩ ?_ (h.down k l hl)
  intro q hq
  exact h.up k l hl q (by simp [hu, show q ∈ up from hq])

theorem stepRoute (h : Inv c z) {k : Nat} {z' : Zone ι κ} (hst : z.stepRoute k = some z') : Inv c z' := by
  obtain ⟨l, hl, hst⟩ := Option.bind_eq_some_iff.mp hst
  obtain ⟨fd, -, hst⟩ := Option.bind_eq_some_iff.mp hst
  obtain ⟨-, -, hst⟩ := Option.bind_eq_some_iff.mp hst
  split at hst
  · cases hst
  · next p up hu =>
    obtain rfl := Option.some.inj hst
    exact (h.popUp hl hu).forward l.router (h.up k l hl p (by simp [hu]))

theorem regist (h : Inv c z) {k : Nat} {l : Link ι κ} (hl : z.link k = some l) {p : Packet} (hp : p ∈ l.up)
    (hcmd : p.frame.cmd = CMD_REGISTER_SERVER_REQ) :
    ∃ zone, p.body = .registerServerReq (i32 (c l.server).serverType.toNat) (i32 (c l.server).instanceId.toNat) zone := by
  cases h.up k l hl p hp with
  | message hg hc =>
    rw [hcmd] at hc
    exact absurd register_base hc
  | regist hc hb => exact hb

theorem register_eq [DecidableEq κ] (h : Inv c z) {k : Nat} {transId len : UInt32} {z' : Zone ι κ}
    (hst : z.stepRegister k transId len = some z') :
    ∃ l fd p up zone rsp, z.link k = some l ∧ (z.router l.router).table fd = some k ∧ l.up = p :: up ∧
      p.body = .registerServerReq (i32 (c l.server).serverType.toNat) (i32 (c l.server).instanceId.toNat) zone ∧
      rsp.no = z.next ∧ rsp.via = none ∧ (∃ code, rsp.body = .registerServerRsp code) ∧
      z' = { (z.setRouter l.router ((z.router l.router).onRegister fd (i32 (c l.server).serverType.toNat)
        (i32 (c l.server).instanceId.toNat) zone).1).setLink k { l with up, down := l.down ++ [rsp] } with
        next := z.next + 1 } := by
  obtain ⟨l, hl, hst⟩ := Option.bind_eq_some_iff.mp hst
  obtain ⟨fd, hfd, hst⟩ := Option.bind_eq_some_iff.mp hst
  obtain ⟨k', ht, hst⟩ := Option.bind_eq_some_iff.mp hst
  have hopen := h.opened k l fd hl (Side.fd_eq_some.mp hfd)
  obtain rfl : k = k' := Option.some.inj (hopen.symm.trans ht)
  split at hst
  · cases hst
  · next p up hu =>
    split at hst
    · next t id zone hbody =>
      obtain ⟨hcmd, hst⟩ := Option.ite_none_right_eq_some.mp hst
      obtain ⟨zone', hreq⟩ := h.regist hl (p := p) (by simp [hu]) hcmd
      obtain ⟨ht', hid, hzone⟩ := Body.registerServerReq.inj (hbody.symm.trans hreq)
      rw [ht', hid, hzone] at hst
      refine ⟨l, fd, p, up, zone', z.packet none ((z.router l.router).registered p.frame transId len)
        (.registerServerRsp ((z.router l.router).onRegister fd (i32 (c l.server).serverType.toNat)
          (i32 (c l.server).instanceId.toNat) zone').2), hl, ht, hu, hreq, rfl, rfl, ⟨_, rfl⟩, ?_⟩
      rw [← Option.some.inj hst, setLink_push]
      rfl
    · cases hst

theorem stepRegister [DecidableEq κ] (h : Inv c z) {k : Nat} {transId len : UInt32} {z' : Zone ι κ}
    (hst : z.stepRegister k transId len = some z') : Inv c z' := by
  obtain ⟨l, fd, p, up, zone, rsp, hl, ht, hu, -, -, hv, hb, rfl⟩ := h.register_eq hst
  have hr : Inv c (z.setRouter l.router ((z.router l.router).onRegister fd (i32 (c l.server).serverType.toNat)
      (i32 (c l.server).instanceId.toNat) zone).1) := by
    unfold Router.onRegister
    split
    · exact h.setRouter rfl (h.keyed l.router) (h.registry l.router)
    · exact h.login ht hl (by rw [ofInt_i32, key])
  have hset := hr.setLink (n := { l with up, down := l.down ++ [rsp] }) hl ⟨rfl, rfl, rfl⟩ ?_ ?_
  · exact hset.withNext _
  · intro q hq
    exact h.up k l hl q (by simp [hu, show q ∈ up from hq])
  · intro q hq
    rcases List.mem_append.mp hq with hq | hq
    · exact h.down k l hl q hq
    · rw [List.mem_singleton.mp hq]
      exact .registered hv hb

/-! ## Connections -/

theorem connect (h : Inv c z) (i : ι) (j : κ) : Inv c
    { z with link := Function.update z.link z.linkTop (some ⟨i, j, .before, .before, [], []⟩), linkTop := z.linkTop + 1 } := by
  have hlink : ∀ k l, z.link k = some l →
      Function.update z.link z.linkTop (some ⟨i, j, .before, .before, [], []⟩) k = some l := by
    intro k l hl
    rw [Function.update_of_ne (Nat.ne_of_lt (h.top k l hl)), hl]
  have hback : ∀ k l, Function.update z.link z.linkTop (some ⟨i, j, .before, .before, [], []⟩) k = some l →
      (k = z.linkTop ∧ l = ⟨i, j, .before, .before, [], []⟩) ∨ z.link k = some l := by
    intro k l hl
    by_cases hk : k = z.linkTop
    · subst hk
      exact .inl ⟨rfl, by simpa using hl.symm⟩
    · exact .inr (by simpa [hk] using hl)
  refine ⟨h.runs, h.gave, h.took, ?_, ?_, ?_, ?_, h.keyed, ?_, ?_, ?_⟩
  · intro k l hl
    rcases hback k l hl with ⟨rfl, -⟩ | hl
    · exact Nat.lt_succ_self _
    · exact Nat.lt_succ_of_lt (h.top k l hl)
  · intro i' fd k ht
    obtain ⟨l, hl, hi⟩ := h.appTable i' fd k ht
    exact ⟨l, hlink k l hl, hi⟩
  · intro j' fd k ht
    obtain ⟨h0, l, hl, hj, hfd⟩ := h.table j' fd k ht
    exact ⟨h0, l, hlink k l hl, hj, hfd⟩
  · intro k l fd hl hfd
    rcases hback k l hl with ⟨-, rfl⟩ | hl
    · cases hfd
    · exact h.opened k l fd hl hfd
  · intro j' x hx
    obtain ⟨k, l, ht, hl, hk⟩ := h.registry j' x hx
    exact ⟨k, l, ht, hlink k l hl, hk⟩
  · intro k l hl p hp
    rcases hback k l hl with ⟨-, rfl⟩ | hl
    · cases hp
    · exact h.up k l hl p hp
  · intro k l hl p hp
    rcases hback k l hl with ⟨-, rfl⟩ | hl
    · cases hp
    · exact h.down k l hl p hp

theorem setApp [DecidableEq ι] (h : Inv c z) {k : Nat} {l : Link ι κ} (hl : z.link k = some l) (side : Side)
    {t : Int → Option Nat} (ht : ∀ fd k', t fd = some k' → k' = k ∨ z.appTable l.server fd = some k') : Inv c
    { z.setLink k { l with appSide := side } with appTable := Function.update z.appTable l.server t } := by
  have hset := h.setLink (n := { l with appSide := side }) hl ⟨rfl, rfl, rfl⟩ (h.up k l hl) (h.down k l hl)
  refine ⟨hset.runs, hset.gave, hset.took, hset.top, ?_, hset.table, hset.opened, hset.keyed, hset.registry, hset.up,
    hset.down⟩
  intro i fd k' ht'
  by_cases hi : i = l.server
  · subst hi
    rcases ht fd k' (by simpa using ht') with rfl | hold
    · exact ⟨{ l with appSide := side }, by simp, rfl⟩
    · exact hset.appTable l.server fd k' hold
  · exact hset.appTable i fd k' (by simpa [hi] using ht')

theorem stepAppIn [DecidableEq ι] [DecidableEq κ] (h : Inv c z) {k : Nat} {fd : Int} {z' : Zone ι κ}
    (hst : z.step (.appIn k fd) = some z') : Inv c z' := by
  obtain ⟨l, hl, hst⟩ := Option.bind_eq_some_iff.mp hst
  dsimp only at hst
  split at hst
  · obtain rfl := Option.some.inj hst
    refine h.setApp hl _ ?_
    intro fd' k' ht
    cases hold : z.appTable l.server fd with
    | none =>
      simp only [KeyTable.insert, hold] at ht
      by_cases hfd : fd' = fd
      · subst hfd
        exact .inl (by simpa using ht.symm)
      · exact .inr (by simpa [hfd] using ht)
    | some _ =>
      simp only [KeyTable.insert, hold] at ht
      exact .inr ht
  · cases hst

theorem stepAppOut [DecidableEq ι] [DecidableEq κ] (h : Inv c z) {k : Nat} {z' : Zone ι κ}
    (hst : z.step (.appOut k) = some z') : Inv c z' := by
  obtain ⟨l, hl, hst⟩ := Option.bind_eq_some_iff.mp hst
  obtain ⟨fd, -, hst⟩ := Option.bind_eq_some_iff.mp hst
  obtain rfl := Option.some.inj hst
  refine h.setApp hl _ ?_
  intro fd' k' ht
  by_cases hfd : fd' = fd
  · simp [KeyTable.erase, hfd] at ht
  · exact .inr (by simpa [KeyTable.erase, hfd] using ht)

theorem stepRouterIn [DecidableEq ι] [DecidableEq κ] (h : Inv c z) {k : Nat} {fd : Int}
    (hfree : Allowed z (.routerIn k fd)) {z' : Zone ι κ} (hst : z.step (.routerIn k fd) = some z') : Inv c z' := by
  obtain ⟨l, hl, hst⟩ := Option.bind_eq_some_iff.mp hst
  dsimp only at hst
  split at hst
  · next hside =>
    obtain ⟨h0, hst⟩ := Option.ite_none_right_eq_some.mp hst
    obtain rfl := Option.some.inj hst
    have hfd := hfree l hl
    have hins : KeyTable.insert (fun _ => fd) (z.router l.router).table k =
        Function.update (z.router l.router).table fd (some k) := by simp [KeyTable.insert, hfd]
    have hne : ∀ fd' k', (z.router l.router).table fd' = some k' → k' ≠ k ∧ fd' ≠ fd := by
      intro fd' k' ht
      refine ⟨?_, ?_⟩
      · rintro rfl
        obtain ⟨-, m, hm, -, hm'⟩ := h.table _ fd' k' ht
        obtain rfl := Option.some.inj (hm.symm.trans hl)
        rw [hside] at hm'
        cases hm'
      · rintro rfl
        rw [hfd] at ht
        cases ht
    rw [hins]
    refine h.setSide hl ?_ ?_ ?_ (h.keyed l.router) ?_
    · intro fd' k' ht
      by_cases hf : fd' = fd
      · subst hf
        exact ⟨h0, .inl ⟨by simpa using ht.symm, rfl⟩⟩
      · have hold : (z.router l.router).table fd' = some k' := by simpa [hf] using ht
        exact ⟨(h.table _ fd' k' hold).1, .inr ⟨(hne fd' k' hold).1, hold⟩⟩
    · intro fd' hf
      obtain rfl := Side.between.inj hf
      simp
    · intro fd' k' _ ht
      simpa [(hne fd' k' ht).2] using ht
    · intro x hx
      obtain ⟨k', m, ht, hm, hk⟩ := h.registry l.router x hx
      exact ⟨k', m, by simpa [(hne _ k' ht).2] using ht, hm, hk⟩
  · cases hst

theorem stepRouterOut [DecidableEq ι] [DecidableEq κ] (h : Inv c z) {k : Nat} {z' : Zone ι κ}
    (hst : z.step (.routerOut k true) = some z') : Inv c z' := by
  obtain ⟨l, hl, hst⟩ := Option.bind_eq_some_iff.mp hst
  obtain ⟨fd, hfd, hst⟩ := Option.bind_eq_some_iff.mp hst
  obtain rfl := Option.some.inj hst
  have ht := h.opened k l fd hl (Side.fd_eq_some.mp hfd)
  have hsome : (z.router l.router).table fd ≠ none := by simp [ht]
  have htable : ((z.router l.router).out fd true).table = KeyTable.erase (z.router l.router).table fd := by
    rw [Router.out, if_neg hsome]
  obtain ⟨hkeyed, hreg⟩ := h.out_registry l.router hsome
  refine h.setSide hl ?_ nofun ?_ hkeyed hreg
  · intro fd' k' ht'
    rw [htable] at ht'
    by_cases hf : fd' = fd
    · simp [KeyTable.erase, hf] at ht'
    · have hold : (z.router l.router).table fd' = some k' := by simpa [KeyTable.erase, hf] using ht'
      obtain ⟨h0, m, hm, -, hm'⟩ := h.table _ fd' k' hold
      refine ⟨h0, .inr ⟨?_, hold⟩⟩
      rintro rfl
      obtain rfl := Option.some.inj (hm.symm.trans hl)
      exact hf (Side.between.inj (hm'.symm.trans (Side.fd_eq_some.mp hfd)))
  · intro fd' k' hne ht'
    have hf : fd' ≠ fd := by
      rintro rfl
      exact hne (Option.some.inj (ht'.symm.trans ht))
    simpa [htable, KeyTable.erase, hf] using ht'

theorem step [DecidableEq ι] [DecidableEq κ] (h : Inv c z) {op : Op ι κ} (ha : Allowed z op) {z' : Zone ι κ}
    (hst : z.step op = some z') : Inv c z' := by
  cases op with
  | app i e data => exact h.stepApp ha hst
  | regist i p fd len => exact h.stepRegist hst
  | deliver k target => exact h.stepDeliver hst
  | route k => exact h.stepRoute hst
  | register k transId len => exact h.stepRegister hst
  | connect i j =>
    obtain rfl := Option.some.inj hst
    exact h.connect i j
  | appIn k fd => exact h.stepAppIn hst
  | routerIn k fd => exact h.stepRouterIn ha hst
  | appOut k => exact h.stepAppOut hst
  | routerOut k handled =>
    obtain rfl : handled = true := ha
    exact h.stepRouterOut hst
  | loseUp k n =>
    obtain ⟨l, hl, rfl⟩ := Option.map_eq_some_iff.mp hst
    exact h.setLink hl ⟨rfl, rfl, rfl⟩ (fun p hp => h.up k l hl p (List.eraseIdx_subset hp)) (h.down k l hl)
  | loseDown k n =>
    obtain ⟨l, hl, rfl⟩ := Option.map_eq_some_iff.mp hst
    exact h.setLink hl ⟨rfl, rfl, rfl⟩ (h.up k l hl) fun p hp => h.down k l hl p (List.eraseIdx_subset hp)

theorem init (c : ι → App.Config) (routers : κ → Router) : Inv c (Zone.init c routers) where
  runs := fun i => .nil
  gave := by simp [Zone.init]
  took := by simp [Zone.init]
  top := by simp [Zone.init]
  appTable := by simp [Zone.init]
  table := by simp [Zone.init]
  opened := by simp [Zone.init]
  keyed := by simp [Zone.init, SeverInstanceMgr.init, Keyed]
  registry := by simp [Zone.init, SeverInstanceMgr.init, fdAt, findType]
  up := by simp [Zone.init]
  down := by simp [Zone.init]

end Inv

/-- The runs of a zone whose steps are all allowed. -/
abbrev Run [DecidableEq ι] [DecidableEq κ] (c : ι → App.Config) (routers : κ → Router) (t : List (Op ι κ))
    (z : Zone ι κ) : Prop :=
  Runs.Run (fun z op z' => z.step op = some z') (fun _ z op => Allowed z op) (init c routers) t z

theorem run_inv [DecidableEq ι] [DecidableEq κ] {routers : κ → Router} {t : List (Op ι κ)} (h : Run c routers t z) :
    Inv c z := by
  refine h.invariant (fun _ z => Inv c z) (.init c routers) ?_
  intro t z op z' _ hi ha hst
  exact hi.step ha hst

/-- The message waits on a connection of the server, or the server has handled it. -/
def Reached (z : Zone ι κ) (i : ι) (p : Packet) : Prop :=
  (∃ k l, z.link k = some l ∧ l.server = i ∧ p ∈ l.down) ∨ ∃ x ∈ z.trace i, ∃ k, x.took = some (k, p)

theorem Inv.gave_step (h : Inv c z) {i : ι} {p : Packet} (hg : Gave z.trace i p) :
    ∃ u y v a a' fd, z.trace i = u ++ y :: v ∧ y.gave = some p ∧ y.event.out = some (fd, p.frame) ∧
      App.Run (fun _ _ _ => True) (c i) (u.map Entry.event) a ∧ a.step y.event = some a' := by
  obtain ⟨y, hy, hp⟩ := hg
  obtain ⟨fd, ho⟩ := (h.gave i y hy p hp).out
  obtain ⟨u, v, ht⟩ := List.append_of_mem hy
  obtain ⟨a, a', hr, -, hst⟩ := (h.runs i).event (u.map Entry.event) y.event (v.map Entry.event) (by rw [ht]; simp)
  exact ⟨u, y, v, a, a', fd, ht, hp, ho, hr, hst⟩

theorem Inv.inNameOf (h : Inv c z) (hc : ∀ i, (c i).Agrees) {i : ι} {p : Packet} (hg : Gave z.trace i p) :
    App.InNameOf (c i) p.frame := by
  obtain ⟨u, y, v, a, a', fd, ht, hp, ho, hr, hst⟩ := h.gave_step hg
  exact App.out_inNameOf (App.run_sound hr) (App.run_named hr) (hc i) hst ho

theorem Inv.reached (h : Inv c z) {i : ι} {p : Packet} (hp : Reached z i p) : Comes c z.trace i p := by
  rcases hp with ⟨k, l, hl, rfl, hp⟩ | ⟨x, hx, k, hp⟩
  · exact h.down k l hl p hp
  · exact (h.took i x hx k p hp).1

section
variable [DecidableEq ι] [DecidableEq κ] {routers : κ → Router} {t : List (Op ι κ)}

instance (z : Zone ι κ) (op : Op ι κ) : Decidable (Allowed z op) :=
  match op with
  | .app _ e _ => inferInstanceAs (Decidable (∀ out ∈ e.out, out.2.cmd ∉ baseCmds))
  | .routerIn k fd => inferInstanceAs (Decidable (∀ l ∈ z.link k, (z.router l.router).table fd = none))
  | .routerOut _ handled => inferInstanceAs (Decidable (handled = true))
  | .regist .. | .deliver .. | .route .. | .register .. | .connect .. | .appIn .. | .appOut .. | .loseUp .. | .loseDown .. =>
    inferInstanceAs (Decidable True)

/-- The state after a list of operations that are all allowed. -/
def replay (c : ι → App.Config) (routers : κ → Router) (t : List (Op ι κ)) : Option (Zone ι κ) :=
  Runs.replay (fun z op => if Allowed z op then z.step op else none) (init c routers) t

theorem replay_run (h : replay c routers t = some z) : Run c routers t z := Runs.Run.of_replay_meets h

end

/-- Two servers of the types 1 and 2. -/
def twoServers (i : Fin 2) : App.Config where
  maxConcurrentTrans := 5000
  buckets := fun cmd => if cmd = 7 then some false else if cmd = 8 then some true else none
  serverType := if i = 0 then 1 else 2
  instanceId := 1
  serverZone := 0
  router := { selfServerType := if i = 0 then 1 else 2, selfInstanceId := 1, selfServerZone := 0, routerInfoVec := [9] }
  now := 0

def oneRouter (_ : Unit) : Router :=
  { instanceId := 1, serverZone := 0, severInstanceMgr := .init (some [⟨1, POLICY_RANDOM⟩, ⟨2, POLICY_RANDOM⟩])
    transferInfoVec := [], table := fun _ => none }

/-- A server connects and registers. -/
def registering (i : Fin 2) : List (Op (Fin 2) Unit) :=
  let fd := M_TCP_FD_FLAG + 5 + i.val
  [.connect i (), .appIn i.val 9, .routerIn i.val fd, .app i (.dispatch 3 { cmd := 7 } (some 0)) [], .regist i 0 9 0,
    .app i (.co 0 (.parseMsg (.frame 0 { cmd := 7 }) false)) [], .app i .dispatched [], .register i.val 1 0,
    .deliver i.val none, .app i .dispatched []]

def askFrame : AppHeadFrame :=
  { srcSvrType := 1, dstSvrType := 2, srcInstId := 1, srcTransId := 2, cmd := 8, reqRandom := 10000 }

/-- The first server asks for an instance of the type of the second. -/
def asking : List (Op (Fin 2) Unit) :=
  registering 0 ++ registering 1 ++ [.app 0 (.dispatch 3 { cmd := 7 } (some 0)) [],
    .app 0 (.co 0 (.parseMsg (.frame 2 { cmd := 7 }) true)) [],
    .app 0 (.co 0 (.callMsg 8 2 0 0 10000 (9, askFrame) 0)) [], .app 0 .dispatched []]

def answerFrame : AppHeadFrame :=
  { srcSvrType := 2, dstSvrType := 1, srcInstId := 1, dstInstId := 1, srcTransId := 2, dstTransId := 2, cmd := 9,
    reqRandom := 10000 }

/-- The second server answers. -/
def answering : List (Op (Fin 2) Unit) :=
  asking ++ [.route 0, .deliver 1 (some 1), .app 1 (.co 1 (.parseMsg (.frame 2 askFrame) true)) [],
    .app 1 (.co 1 (.onRequest 0 (.frame 2 askFrame) 0 (some (9, answerFrame)))) [], .app 1 .dispatched [],
    .route 1, .deliver 0 (some 0)]

theorem twoServers_agree : ∀ i, (twoServers i).Agrees
  | 0 => ⟨rfl, rfl⟩
  | 1 => ⟨rfl, rfl⟩

def askPacket : Packet := ⟨4, some 0, askFrame, .bytes []⟩

/-- The first server's connection has ended, but the router has not processed that when the second server comes with the
descriptor and registers. -/
theorem registered_stale :
    (Runs.replay (fun z op => z.step op) (init twoServers oneRouter)
      [.connect 0 (), .routerIn 0 (M_TCP_FD_FLAG + 5), .connect 1 (), .appIn 1 9, .routerIn 1 (M_TCP_FD_FLAG + 5),
        .app 1 (.dispatch 3 { cmd := 7 } (some 0)) [], .regist 1 0 9 0, .register 1 1 0]).map (fun z =>
      ((z.router ()).severInstanceMgr.fdAt (key (twoServers 1)), (z.router ()).table (M_TCP_FD_FLAG + 5),
        (z.link 0).map Link.server)) = some (M_TCP_FD_FLAG + 5, some 0, some 0) := by
  decide +kernel

end GlobalServer.Zone
