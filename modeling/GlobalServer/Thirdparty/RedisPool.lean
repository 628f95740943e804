import GlobalServer.Thirdparty.MysqlPool

/-!
# The contexts of one thread: `RedisPool`

A pooled context is under a number packed from an address, a port and a
database. `_info` leads from the number to the context and `_revinfo` back.
The handles of one context share it, so that a release through one of them
leaves a null pointer to the others. What becomes of a command or of an
attempt to connect is part of a call, and so is `inet_addr`.
-/

namespace GlobalServer

/-- What `GetConnection` is asked for. -/
@[ext] structure RedisParams where
  ip : CString
  port : UInt16
  database : UInt16
  user : CString
  passwd : CString
  deriving DecidableEq

/-- What a server has been told on one `redisContext`. -/
structure RedisSession where
  ip : CString
  port : UInt16
  auth : Option (CString × CString)
  db : UInt16
  deriving DecidableEq

/-- `_rediscontext_` -/
structure RedisContext where
  context : Option RedisSession
  params : RedisParams

/-- `_redisinfo_`, and the contexts that have been made. -/
structure RedisPool where
  info : UInt64 → Option Nat
  revinfo : Nat → Option UInt64
  contexts : Nat → RedisContext
  contextTop : Nat

/-- What comes of opening a connection: a null pointer or an error of the connect, and the errors of the commands. -/
structure Opening where
  connect : Option (Except CString Unit)
  auth : Except CString Unit
  selectdb : Except CString Unit

namespace RedisPool

def threeOnlyId (ip : UInt32) (port db : UInt16) : UInt64 :=
  (ip.toUInt64 <<< 32) + (port.toUInt64 <<< 16) + db.toUInt64

def M_ERR_REDIS_CONNECT_FAIL : CString := "redisConnect fail".toList.map Char.toUInt8

/-- A session with what is asked for: without a password there is nothing to send, and 0 is the database to begin with. -/
def session (q : RedisParams) : RedisSession :=
  { ip := q.ip, port := q.port, auth := if q.passwd = [] then none else some (q.user, q.passwd), db := q.database }

/-- `_auth`, when there is a password -/
def auth (q : RedisParams) (o : Opening) (c : RedisSession) : Except CString RedisSession :=
  if q.passwd = [] then .ok c else o.auth.map fun _ => { c with auth := some (q.user, q.passwd) }

/-- `_selectdb`, when another database is asked for than the one a connection begins with -/
def selectdb (q : RedisParams) (o : Opening) (c : RedisSession) : Except CString RedisSession :=
  if q.database = 0 then .ok c else o.selectdb.map fun _ => { c with db := q.database }

def openSession (q : RedisParams) (o : Opening) : Except CString RedisSession :=
  match o.connect with
  | none => .error M_ERR_REDIS_CONNECT_FAIL
  | some (.error errstr) => .error errstr
  | some (.ok ()) => do
    let c ← auth q o { ip := q.ip, port := q.port, auth := none, db := 0 }
    selectdb q o c

def init : RedisPool :=
  { info := fun _ => none, revinfo := fun _ => none, contextTop := 0
    contexts := fun _ => { context := none, params := { ip := [], port := 0, database := 0, user := [], passwd := [] } } }

/-- A new context, under its number. -/
def addContext (s : RedisPool) (uniqueId : UInt64) (q : RedisParams) (c : RedisSession) : RedisPool :=
  { info := Function.update s.info uniqueId (some s.contextTop)
    revinfo := Function.update s.revinfo s.contextTop (some uniqueId)
    contexts := Function.update s.contexts s.contextTop { context := some c, params := q }
    contextTop := s.contextTop + 1 }

/-- The entries of a context that has some. -/
def eraseContext (s : RedisPool) (p : Nat) : RedisPool :=
  match s.revinfo p with
  | none => s
  | some uniqueId =>
    { s with info := Function.update s.info uniqueId none, revinfo := Function.update s.revinfo p none }

/-- `_releaseConnection` -/
def releaseConnection (s : RedisPool) (p : Nat) : RedisPool :=
  let s := s.eraseContext p
  { s with contexts := Function.update s.contexts p { s.contexts p with context := none } }

section
variable (inetAddr : CString → UInt32)

def uniqueId (q : RedisParams) : UInt64 := threeOnlyId (inetAddr q.ip) q.port q.database

/-- `GetConnection`, which throws what `openSession` has for an error -/
def getConnection (s : RedisPool) (q : RedisParams) (o : Opening) : RedisPool × Except CString Nat :=
  match s.info (uniqueId inetAddr q) with
  | some p => (s, .ok p)
  | none => match openSession q o with
    | .error e => (s, .error e)
    | .ok c => (s.addContext (uniqueId inetAddr q) q c, .ok s.contextTop)

/-- A command on `p`, and the context that the connection has after it: when there is no reply it is released and
asked for once more. -/
def command (s : RedisPool) (p : Nat) (reply : Bool) (o : Opening) : RedisPool × Except CString Nat :=
  if reply then (s, .ok p) else (s.releaseConnection p).getConnection inetAddr (s.contexts p).params o

def w_redisCommand : RedisPool → Nat → Bool → Opening → RedisPool × Except CString Nat := command inetAddr

def wredisCommandArgv : RedisPool → Nat → Bool → Opening → RedisPool × Except CString Nat := command inetAddr

/-! ## Calls -/

inductive Call where
  | getConnection (q : RedisParams) (o : Opening)
  | w_redisCommand (p : Nat) (reply : Bool) (o : Opening)
  | wredisCommandArgv (p : Nat) (reply : Bool) (o : Opening)
  | releaseConnection (p : Nat)

def step (s : RedisPool) : Call → RedisPool
  | .getConnection q o => (s.getConnection inetAddr q o).1
  | .w_redisCommand p reply o => (w_redisCommand inetAddr s p reply o).1
  | .wredisCommandArgv p reply o => (wredisCommandArgv inetAddr s p reply o).1
  | .releaseConnection p => s.releaseConnection p

/-- A handle is one that `GetConnection` has returned, and a command is called on one that is connected. -/
def Valid (s : RedisPool) : Call → Prop
  | .getConnection _ _ => True
  | .w_redisCommand p _ _ => p < s.contextTop ∧ (s.contexts p).context ≠ none
  | .wredisCommandArgv p _ _ => p < s.contextTop ∧ (s.contexts p).context ≠ none
  | .releaseConnection p => p < s.contextTop

/-- The maps are inverse to each other. -/
def Inverse (s : RedisPool) : Prop := ∀ k p, s.info k = some p ↔ s.revinfo p = some k

/-- The context has been opened with `q`, and is connected. -/
def Opened (s : RedisPool) (p : Nat) (q : RedisParams) : Prop :=
  (s.contexts p).params = q ∧ (s.contexts p).context = some (session q)

/-- The call does what it should. -/
def CallOk (s : RedisPool) (c : Call) : Prop :=
  (s.step inetAddr c).Inverse ∧ match c with
    | .getConnection q o => ∀ p, (s.getConnection inetAddr q o).2 = .ok p → (s.step inetAddr c).Opened p q
    | .w_redisCommand p reply o => ∀ p', (w_redisCommand inetAddr s p reply o).2 = .ok p' →
      (s.step inetAddr c).Opened p' (s.contexts p).params
    | .wredisCommandArgv p reply o => ∀ p', (wredisCommandArgv inetAddr s p reply o).2 = .ok p' →
      (s.step inetAddr c).Opened p' (s.contexts p).params
    | .releaseConnection _ => True

/-- No context under the number that is asked for has another address, user or password. -/
def SameParams (s : RedisPool) : Call → Prop
  | .getConnection q _ => ∀ p, s.info (uniqueId inetAddr q) = some p →
    (s.contexts p).params.ip = q.ip ∧ (s.contexts p).params.user = q.user ∧ (s.contexts p).params.passwd = q.passwd
  | _ => True

end

/-! ## Numbers and sessions -/

theorem threeOnlyId_toNat (ip : UInt32) (port db : UInt16) :
    (threeOnlyId ip port db).toNat = ip.toNat * 2 ^ 32 + port.toNat * 2 ^ 16 + db.toNat := by
  have h1 := ip.toNat_lt
  have h2 := port.toNat_lt
  have h3 := db.toNat_lt
  have e32 : (32 : UInt64).toNat = 32 := rfl
  have e16 : (16 : UInt64).toNat = 16 := rfl
  simp only [threeOnlyId, UInt64.toNat_add, UInt64.toNat_shiftLeft, UInt32.toNat_toUInt64, UInt16.toNat_toUInt64, e32,
    e16, Nat.shiftLeft_eq, Nat.reduceMod]
  omega

theorem threeOnlyId_inj {ip ip' : UInt32} {port port' db db' : UInt16}
    (h : threeOnlyId ip port db = threeOnlyId ip' port' db') : port = port' ∧ db = db' := by
  have hn := congrArg UInt64.toNat h
  rw [threeOnlyId_toNat, threeOnlyId_toNat] at hn
  have h2 := port.toNat_lt
  have h3 := db.toNat_lt
  have h2' := port'.toNat_lt
  have h3' := db'.toNat_lt
  constructor
  · apply UInt16.toNat_inj.mp
    omega
  · apply UInt16.toNat_inj.mp
    omega

theorem openSession_eq_ok {q : RedisParams} {o : Opening} {c : RedisSession} (h : openSession q o = .ok c) :
    c = session q := by
  obtain ⟨connect, auth, selectdb⟩ := o
  unfold openSession at h
  unfold session
  cases connect with
  | none => cases h
  | some r =>
    cases r with
    | error e => cases h
    | ok _ =>
      obtain ⟨c₁, h₁, h₂⟩ := Except.bind_eq_ok.mp h
      have hc₁ : c₁ =
          { ip := q.ip, port := q.port, auth := if q.passwd = [] then none else some (q.user, q.passwd), db := 0 } := by
        unfold RedisPool.auth at h₁
        split at h₁
        · rename_i hp
          cases h₁
          rw [if_pos hp]
        · rename_i hp
          cases auth <;> cases h₁
          rw [if_neg hp]
      unfold RedisPool.selectdb at h₂
      split at h₂
      · rename_i hd
        cases h₂
        rw [hc₁, hd]
      · cases selectdb <;> cases h₂
        rw [hc₁]

/-! ## The pool -/

section
variable (inetAddr : CString → UInt32)

/-- Exactly the connected contexts are in the maps, each under its number, and each is as it was asked for. -/
structure Pooled (s : RedisPool) : Prop where
  inverse : s.Inverse
  info : ∀ k p, s.info k = some p → p < s.contextTop ∧ k = uniqueId inetAddr (s.contexts p).params ∧
    (s.contexts p).context = some (session (s.contexts p).params)
  connected : ∀ p < s.contextTop, (s.contexts p).context ≠ none → s.info (uniqueId inetAddr (s.contexts p).params) = some p

theorem pooled_init : init.Pooled inetAddr where
  inverse := fun k p => by simp [init]
  info := fun k p h => by cases h
  connected := fun p hp => absurd hp (Nat.not_lt_zero p)

variable {inetAddr} {s : RedisPool} (h : s.Pooled inetAddr)
include h

theorem Pooled.opened {k : UInt64} {p : Nat} (hi : s.info k = some p) : s.Opened p (s.contexts p).params :=
  ⟨rfl, (h.info k p hi).2.2⟩

theorem pooled_addContext {q : RedisParams} (hn : s.info (uniqueId inetAddr q) = none) :
    (s.addContext (uniqueId inetAddr q) q (session q)).Pooled inetAddr := by
  have hfresh : ∀ k, s.info k ≠ some s.contextTop := fun k hk => Nat.lt_irrefl _ (h.info k _ hk).1
  have hrev : s.revinfo s.contextTop = none := by
    cases hr : s.revinfo s.contextTop with
    | none => rfl
    | some k => exact absurd ((h.inverse k _).mpr hr) (hfresh k)
  constructor
  · intro k p
    simp only [addContext]
    by_cases hk : k = uniqueId inetAddr q
    · subst hk
      rw [Function.update_self]
      by_cases hp : p = s.contextTop
      · subst hp
        rw [Function.update_self]
        simp
      · rw [Function.update_of_ne hp, ← h.inverse, hn]
        simpa using Ne.symm hp
    · rw [Function.update_of_ne hk]
      by_cases hp : p = s.contextTop
      · subst hp
        rw [Function.update_self]
        simp only [Option.some.injEq]
        exact ⟨fun hi => absurd hi (hfresh k), fun he => absurd he.symm hk⟩
      · rw [Function.update_of_ne hp]
        exact h.inverse k p
  · intro k p hi
    simp only [addContext] at hi ⊢
    by_cases hk : k = uniqueId inetAddr q
    · subst hk
      rw [Function.update_self] at hi
      cases hi
      rw [Function.update_self]
      exact ⟨Nat.lt_succ_self _, rfl, rfl⟩
    · rw [Function.update_of_ne hk] at hi
      obtain ⟨hlt, hrest⟩ := h.info k p hi
      rw [Function.update_of_ne (Nat.ne_of_lt hlt)]
      exact ⟨Nat.lt_succ_of_lt hlt, hrest⟩
  · intro p hp hc
    simp only [addContext] at hp hc ⊢
    by_cases hpt : p = s.contextTop
    · subst hpt
      rw [Function.update_self, Function.update_self]
    · rw [Function.update_of_ne hpt] at hc ⊢
      have hi := h.connected p (by omega) hc
      rw [Function.update_of_ne ?_]
      · exact hi
      · intro he
        rw [he, hn] at hi
        cases hi

theorem pooled_releaseConnection (p : Nat) : (s.releaseConnection p).Pooled inetAddr := by
  -- the other contexts, and what the maps have of them, stay
  have hctx : ∀ p', p' ≠ p → (s.releaseConnection p).contexts p' = s.contexts p' := by
    intro p' hp'
    unfold releaseConnection eraseContext
    split <;> simp only [Function.update_of_ne hp']
  have hself : ((s.releaseConnection p).contexts p).context = none := by
    unfold releaseConnection
    simp only [Function.update_self]
  have htop : (s.releaseConnection p).contextTop = s.contextTop := by
    unfold releaseConnection eraseContext
    split <;> rfl
  have hinfo : ∀ k p', (s.releaseConnection p).info k = some p' ↔ s.info k = some p' ∧ p' ≠ p := by
    intro k p'
    unfold releaseConnection eraseContext
    split
    · rename_i hr
      refine ⟨fun hi => ⟨hi, fun he => ?_⟩, fun hi => hi.1⟩
      rw [he, h.inverse, hr] at hi
      cases hi
    · rename_i k₀ hr
      simp only
      have hk₀ := (h.inverse k₀ p).mpr hr
      by_cases hk : k = k₀
      · subst hk
        rw [Function.update_self, hk₀]
        simpa using fun he : p = p' => he.symm
      · rw [Function.update_of_ne hk]
        refine ⟨fun hi => ⟨hi, fun he => hk ?_⟩, fun hi => hi.1⟩
        rw [he, h.inverse, hr] at hi
        exact (Option.some.inj hi).symm
  have hrev : ∀ k p', (s.releaseConnection p).revinfo p' = some k ↔ s.revinfo p' = some k ∧ p' ≠ p := by
    intro k p'
    unfold releaseConnection eraseContext
    split
    · rename_i hr
      refine ⟨fun hi => ⟨hi, fun he => ?_⟩, fun hi => hi.1⟩
      rw [he, hr] at hi
      cases hi
    · simp only
      by_cases hp : p' = p
      · subst hp
        rw [Function.update_self]
        simp
      · rw [Function.update_of_ne hp]
        simpa using fun _ => hp
  constructor
  · intro k p'
    rw [hinfo, hrev, h.inverse]
  · intro k p' hi
    obtain ⟨hi, hne⟩ := (hinfo k p').mp hi
    rw [htop, hctx p' hne]
    exact h.info k p' hi
  · intro p' hp' hc
    have hne : p' ≠ p := by
      intro he
      rw [he, hself] at hc
      exact hc rfl
    rw [htop] at hp'
    rw [hctx p' hne] at hc ⊢
    exact (hinfo _ p').mpr ⟨h.connected p' hp' hc, hne⟩

theorem info_releaseConnection {p : Nat} (hp : p < s.contextTop) (hc : (s.contexts p).context ≠ none) :
    (s.releaseConnection p).info (uniqueId inetAddr (s.contexts p).params) = none := by
  have hr := (h.inverse _ p).mp (h.connected p hp hc)
  unfold releaseConnection eraseContext
  rw [hr]
  simp only [Function.update_self]

theorem pooled_getConnection (q : RedisParams) (o : Opening) : (s.getConnection inetAddr q o).1.Pooled inetAddr := by
  unfold getConnection
  cases hi : s.info (uniqueId inetAddr q) with
  | some p => exact h
  | none =>
    cases ho : openSession q o with
    | error e => exact h
    | ok c =>
      obtain rfl := openSession_eq_ok ho
      exact pooled_addContext h hi

omit h in
theorem getConnection_opens {q : RedisParams} {o : Opening} (hi : s.info (uniqueId inetAddr q) = none) {p : Nat}
    (hp : (s.getConnection inetAddr q o).2 = .ok p) : (s.getConnection inetAddr q o).1.Opened p q := by
  unfold getConnection at hp ⊢
  simp only [hi] at hp ⊢
  cases ho : openSession q o with
  | error e =>
    rw [ho] at hp
    cases hp
  | ok c =>
    rw [ho] at hp
    cases hp
    obtain rfl := openSession_eq_ok ho
    simp only [addContext, Opened, Function.update_self, and_self]

theorem getConnection_ok_iff (q : RedisParams) (o : Opening) :
    (∀ p, (s.getConnection inetAddr q o).2 = .ok p → (s.getConnection inetAddr q o).1.Opened p q) ↔
      s.SameParams inetAddr (.getConnection q o) := by
  constructor
  · intro hok p hi
    have hget : s.getConnection inetAddr q o = (s, .ok p) := by
      unfold getConnection
      rw [hi]
    have := (hok p (by rw [hget])).1
    rw [hget] at this
    simp only at this
    rw [this]
    exact ⟨rfl, rfl, rfl⟩
  · intro hsame p hp
    cases hi : s.info (uniqueId inetAddr q) with
    | none => exact getConnection_opens hi hp
    | some p' =>
      obtain ⟨hip, huser, hpasswd⟩ := hsame p' hi
      obtain ⟨-, hk, -⟩ := h.info _ p' hi
      obtain ⟨hport, hdb⟩ := threeOnlyId_inj hk
      have hq : (s.contexts p').params = q := RedisParams.ext hip hport.symm hdb.symm huser hpasswd
      have hopened := h.opened hi
      rw [hq] at hopened
      unfold getConnection at hp ⊢
      simp only [hi] at hp ⊢
      cases hp
      exact hopened

theorem pooled_command (p : Nat) (reply : Bool) (o : Opening) : (s.command inetAddr p reply o).1.Pooled inetAddr := by
  unfold command
  cases reply with
  | true => exact h
  | false => exact pooled_getConnection (pooled_releaseConnection h p) _ o

theorem command_opened {p p' : Nat} {reply : Bool} {o : Opening} (hp : p < s.contextTop)
    (hc : (s.contexts p).context ≠ none) (hp' : (s.command inetAddr p reply o).2 = .ok p') :
    (s.command inetAddr p reply o).1.Opened p' (s.contexts p).params := by
  unfold command at hp' ⊢
  cases reply with
  | true =>
    cases hp'
    exact h.opened (h.connected p hp hc)
  | false => exact getConnection_opens (info_releaseConnection h hp hc) hp'

theorem pooled_step (c : Call) : (s.step inetAddr c).Pooled inetAddr := by
  cases c with
  | getConnection q o => exact pooled_getConnection h q o
  | w_redisCommand p reply o => exact pooled_command h p reply o
  | wredisCommandArgv p reply o => exact pooled_command h p reply o
  | releaseConnection p => exact pooled_releaseConnection h p

theorem callOk_iff {c : Call} (hv : s.Valid c) : s.CallOk inetAddr c ↔ s.SameParams inetAddr c := by
  have hinv := (pooled_step h c).inverse
  cases c with
  | getConnection q o => exact (and_iff_right hinv).trans (getConnection_ok_iff h q o)
  | w_redisCommand p reply o => exact iff_of_true ⟨hinv, fun p' hp' => command_opened h hv.1 hv.2 hp'⟩ trivial
  | wredisCommandArgv p reply o => exact iff_of_true ⟨hinv, fun p' hp' => command_opened h hv.1 hv.2 hp'⟩ trivial
  | releaseConnection p => exact iff_of_true ⟨hinv, trivial⟩ trivial

end

section
variable (inetAddr : CString → UInt32)

abbrev Run (t : List Call) (s : RedisPool) : Prop :=
  Runs.Run (fun s c s' => s' = s.step inetAddr c) (fun _ s c => s.Valid c) init t s

/-- After every run of calls the next one does what it should exactly if it does not ask for a number under which the
pool has a context with another address, user or password. -/
theorem redisPool_ok_iff {t : List Call} {s : RedisPool} (h : Run inetAddr t s) {c : Call} (hv : s.Valid c) :
    s.CallOk inetAddr c ↔ s.SameParams inetAddr c := by
  refine callOk_iff ?_ hv
  refine Runs.Run.invariant (fun _ s => s.Pooled inetAddr) (pooled_init inetAddr) ?_ h
  intro t s c s' _ hp _ hs
  rw [hs]
  exact pooled_step hp c

end

/-- `127.0.0.1`, for which `inet_addr` gives the number 0x0100007F. -/
def localhost : CString := "127.0.0.1".toList.map Char.toUInt8

/-- The server of that address, with a user and a password. -/
def localParams (user passwd : CString) : RedisParams := { ip := localhost, port := 6379, database := 0, user, passwd }

/-- Everything succeeds. -/
def opens : Opening := { connect := some (.ok ()), auth := .ok (), selectdb := .ok () }

/-- A connection is opened, and a command on it that gets no reply goes on with the same parameters. -/
theorem redisPool_ok_reconnect :
    (init.step (fun _ => 0x0100007F) (.getConnection (localParams [97] [98]) opens)).CallOk (fun _ => 0x0100007F)
      (.w_redisCommand 0 false opens) := by
  have hrun : Run (fun _ => 0x0100007F) [.getConnection (localParams [97] [98]) opens] _ := .snoc .nil trivial rfl
  exact (redisPool_ok_iff _ hrun (by exact ⟨by decide, by decide⟩)).mpr trivial

/-- The second user gets the connection that the first one has authenticated. -/
theorem redisPool_other_user :
    ¬ (init.step (fun _ => 0x0100007F) (.getConnection (localParams [97] [98]) opens)).CallOk (fun _ => 0x0100007F)
      (.getConnection (localParams [99] [100]) opens) := by
  intro h
  have := (h.2 0 (by decide)).1
  revert this
  decide

end RedisPool

end GlobalServer
