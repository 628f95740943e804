import GlobalServer.Router.ServerInstance

/-!
# What logins and logouts leave in the table

The table is read by key. A login sets the descriptor of its key and a logout
clears that of the first entry with the descriptor, whatever the keys stand
for. As long as no two of the types and ids in play have one key, what is
read is that of the instance asked for.
-/

namespace GlobalServer

open Bytes

namespace SvrInstInfoContainer

/-- Each key has one entry. -/
def Keyed (l : SvrInstInfoContainer) : Prop := (l.map SvrInstInfo.typeInst).Nodup

/-- The entry after `FuncModifySvrInstInfo`, if it has the key. -/
def setFd (typeInst fd : Int) (online : Bool) (x : SvrInstInfo) : SvrInstInfo :=
  if x.typeInst = typeInst then { x with fd, online } else x

@[simp] theorem setFd_typeInst (typeInst fd : Int) (online : Bool) (x : SvrInstInfo) :
    (setFd typeInst fd online x).typeInst = x.typeInst := by
  unfold setFd
  split <;> rfl

@[simp] theorem setFd_info (typeInst fd : Int) (online : Bool) (x : SvrInstInfo) :
    (setFd typeInst fd online x).info = x.info := by
  unfold setFd
  split <;> rfl

theorem link_perm (x : SvrInstInfo) : ∀ l : SvrInstInfoContainer, (link x l).Perm (x :: l)
  | [] => .refl _
  | y :: l => by
    unfold link
    split
    · exact ((link_perm x l).cons y).trans (.swap x y l)
    · exact .refl _

theorem map_setFd_of_absent {typeInst fd : Int} {online : Bool} {l : SvrInstInfoContainer}
    (h : typeInst ∉ l.map SvrInstInfo.typeInst) : l.map (setFd typeInst fd online) = l := by
  refine (List.map_congr_left fun x hx => ?_).trans (List.map_id l)
  have hne : x.typeInst ≠ typeInst := fun e => h (e ▸ List.mem_map_of_mem hx)
  simp [setFd, hne]

theorem modify_perm (fd : Int) (online : Bool) (typeInst : Int) : ∀ {l : SvrInstInfoContainer}, l.Keyed →
    ∀ pre, (modify fd online typeInst pre l).Perm (pre ++ l.map (setFd typeInst fd online))
  | [], _, pre => by simp [modify]
  | x :: l, h, pre => by
    obtain ⟨hx, hl⟩ := List.nodup_cons.mp h
    unfold modify
    by_cases hk : x.typeInst = typeInst
    · have hs : (x :: l).map (setFd typeInst fd online) = { x with fd, online } :: l := by
        rw [List.map_cons, map_setFd_of_absent (hk ▸ hx), setFd, if_pos hk]
      rw [if_pos hk, hs]
      dsimp only
      split
      · exact .refl _
      · exact (link_perm _ _).trans List.perm_middle.symm
    · have hs : setFd typeInst fd online x = x := by simp [setFd, hk]
      rw [if_neg hk, List.map_cons, hs]
      simpa using modify_perm fd online typeInst hl (pre ++ [x])

theorem Keyed.perm {l l' : SvrInstInfoContainer} (h : l.Keyed) (hp : l'.Perm l) : l'.Keyed :=
  (hp.map SvrInstInfo.typeInst).nodup_iff.mpr h

theorem findType_eq_some {l : SvrInstInfoContainer} (h : l.Keyed) {k : Int} {x : SvrInstInfo} :
    l.findType k = some x ↔ x ∈ l ∧ x.typeInst = k := by
  unfold findType
  induction l with
  | nil => simp
  | cons y l ih =>
    obtain ⟨hy, hl⟩ := List.nodup_cons.mp h
    by_cases hk : y.typeInst = k
    · simp only [List.find?_cons, hk, decide_true, Option.some.injEq, List.mem_cons]
      constructor
      · rintro rfl
        exact ⟨Or.inl rfl, hk⟩
      · rintro ⟨rfl | hx, hxk⟩
        · rfl
        · exact absurd (hk.trans hxk.symm ▸ List.mem_map_of_mem hx) hy
    · simp only [List.find?_cons, hk, decide_false, List.mem_cons, ih hl]
      constructor
      · exact fun hx => ⟨Or.inr hx.1, hx.2⟩
      · rintro ⟨rfl | hx, hxk⟩
        · exact absurd hxk hk
        · exact ⟨hx, hxk⟩

theorem findType_eq_none {l : SvrInstInfoContainer} {k : Int} : l.findType k = none ↔ ∀ x ∈ l, x.typeInst ≠ k := by
  simp [findType]

theorem findType_perm {l l' : SvrInstInfoContainer} (h : l.Keyed) (hp : l'.Perm l) (k : Int) :
    l'.findType k = l.findType k := by
  ext x
  rw [findType_eq_some h, findType_eq_some (h.perm hp), hp.mem_iff]

theorem keyed_modify {l : SvrInstInfoContainer} (h : l.Keyed) (fd : Int) (online : Bool) (typeInst : Int) :
    Keyed (modify fd online typeInst [] l) := by
  refine Keyed.perm ?_ (modify_perm fd online typeInst h [])
  simpa [Keyed, Function.comp_def] using h

theorem findType_modify {l : SvrInstInfoContainer} (h : l.Keyed) (fd : Int) (online : Bool) (typeInst k : Int) :
    findType (modify fd online typeInst [] l) k = (l.findType k).map (setFd typeInst fd online) := by
  have hk : Keyed (l.map (setFd typeInst fd online)) := by simpa [Keyed, Function.comp_def] using h
  rw [findType_perm hk (modify_perm fd online typeInst h [])]
  simp only [findType, List.find?_map, Function.comp_def, setFd_typeInst]

theorem insert_new {l : SvrInstInfoContainer} (h : l.Keyed) {x : SvrInstInfo} (hx : l.findType x.typeInst = none) :
    ∃ l', l.insert x = some l' ∧ l'.Keyed ∧ ∀ k, l'.findType k = if k = x.typeInst then some x else l.findType k := by
  have hnew := findType_eq_none.mp hx
  have hk : Keyed (x :: l) := by
    refine List.nodup_cons.mpr ⟨fun hm => ?_, h⟩
    obtain ⟨y, hy, he⟩ := List.mem_map.mp hm
    exact hnew y hy he
  refine ⟨link x l, by simp [insert, hx], hk.perm (link_perm x l), fun k => ?_⟩
  rw [findType_perm hk (link_perm x l)]
  by_cases he : k = x.typeInst
  · simp [findType, he]
  · simp [findType, he, Ne.symm he]

theorem findFd_eq_some {l : SvrInstInfoContainer} {fd : Int} {x : SvrInstInfo} (h : l.findFd fd = some x) :
    x ∈ l ∧ x.fd = fd := by
  have hp := List.find?_some h
  exact ⟨List.mem_of_find?_eq_some h, by simpa using hp⟩

theorem findFd_eq_none {l : SvrInstInfoContainer} {fd : Int} : l.findFd fd = none ↔ ∀ x ∈ l, x.fd ≠ fd := by
  simp [findFd]

end SvrInstInfoContainer

namespace SeverInstanceMgr

open SvrInstInfoContainer

/-! ## One call -/

/-- The entry of a server type. -/
def typeEntry (t : UInt32) (a : Nat) : SvrInstInfo :=
  { typeInst := calcTypeId t 0, fd := 0, instId := 0, online := false, info := a }

/-- What the table has for a key. -/
def fdAt (m : SeverInstanceMgr) (k : Int) : Int := ((m.infoContainer.findType k).map SvrInstInfo.fd).getD 0

theorem getFdByTypeId_eq (m : SeverInstanceMgr) (t : UInt32) (i : Int) :
    m.getFdByTypeId t i = m.fdAt (calcTypeId t i) := by
  unfold getFdByTypeId fdAt
  cases m.infoContainer.findType (calcTypeId t i) <;> rfl

section
variable {m : SeverInstanceMgr} (h : m.infoContainer.Keyed)
include h

theorem fdAt_modify (typeInst fd : Int) (online : Bool) (hk : m.infoContainer.findType typeInst ≠ none) (k : Int) :
    (m.modify typeInst fd online).fdAt k = if k = typeInst then fd else m.fdAt k := by
  unfold fdAt modify
  rw [findType_modify h]
  by_cases he : k = typeInst
  · subst he
    obtain ⟨x, hx⟩ := Option.ne_none_iff_exists'.mp hk
    simp [hx, setFd, ((findType_eq_some h).mp hx).2]
  · cases hx : m.infoContainer.findType k with
    | none => simp [he]
    | some x =>
      have hne : x.typeInst ≠ typeInst := ((findType_eq_some h).mp hx).2 ▸ he
      simp [he, setFd, hne]

theorem basic_spec (t : UInt32) (p : Policy) : ∃ m' x, m.basic t p = some (m', x) ∧ m'.infoContainer.Keyed ∧
    m'.config = m.config ∧ m'.infoContainer.findType (calcTypeId t 0) = some x ∧
    ((m' = m) ∨ (m.infoContainer.findType (calcTypeId t 0) = none ∧ m'.infoTop = m.infoTop + 1 ∧
      m'.info = Function.update m.info m.infoTop { policy := p.policy, instSet := [] } ∧
      x = typeEntry t m.infoTop ∧
      ∀ k, m'.infoContainer.findType k = if k = calcTypeId t 0 then some x else m.infoContainer.findType k)) := by
  cases hx : m.infoContainer.findType (calcTypeId t 0) with
  | some x => exact ⟨m, x, by simp [basic, hx], h, rfl, hx, Or.inl rfl⟩
  | none =>
    obtain ⟨l, hl, hk, hf⟩ := insert_new (x := typeEntry t m.infoTop) h hx
    refine ⟨{ m.newInfo { policy := p.policy, instSet := [] } with infoContainer := l }, typeEntry t m.infoTop, ?_,
      hk, rfl, ?_, ?_⟩
    · unfold typeEntry at hl
      simp [basic, hx, newInfo, hl, typeEntry]
    · simp [hf, typeEntry]
    · exact Or.inr ⟨rfl, rfl, rfl, rfl, hf⟩

theorem basic_fdAt {t : UInt32} {p : Policy} {m' : SeverInstanceMgr} {x : SvrInstInfo}
    (hb : m.basic t p = some (m', x)) (k : Int) :
    m'.fdAt k = m.fdAt k := by
  obtain ⟨m₁, x₁, hb₁, -, -, -, hcase⟩ := basic_spec h t p
  cases hb.symm.trans hb₁
  rcases hcase with rfl | ⟨hnone, -, -, rfl, hf⟩
  · rfl
  · unfold fdAt
    rw [hf]
    by_cases hk : k = calcTypeId t 0
    · simp [hk, hnone, typeEntry]
    · simp [hk]

/-- What a login that is not refused does: the key has an entry, or gets one. -/
inductive Enters (m : SeverInstanceMgr) (t : UInt32) (p : Policy) (i fd : Int) : SeverInstanceMgr → Prop
  | again {mb : SeverInstanceMgr} {x : SvrInstInfo} (hb : m.basic t p = some (mb, x))
      (hk : mb.infoContainer.findType (calcTypeId t i) ≠ none) :
      Enters m t p i fd (mb.modify (calcTypeId t i) fd true)
  | first {mb : SeverInstanceMgr} {x : SvrInstInfo} {l : SvrInstInfoContainer} (hb : m.basic t p = some (mb, x))
      (hk : mb.infoContainer.findType (calcTypeId t i) = none) (hl : l.Keyed)
      (hf : ∀ k, l.findType k =
        if k = calcTypeId t i then some ⟨calcTypeId t i, fd, i, true, x.info⟩ else mb.infoContainer.findType k) :
      Enters m t p i fd { mb.insertInst x.info i with infoContainer := l }

theorem enter_enters (t : UInt32) (p : Policy) (i fd : Int) : ∃ m', m.enter t p i fd = (m', 0) ∧
    Enters m t p i fd m' := by
  obtain ⟨mb, x, hb, hkb, -⟩ := basic_spec h t p
  cases hy : mb.infoContainer.findType (calcTypeId t i) with
  | some y =>
    refine ⟨_, ?_, .again hb (by simp [hy])⟩
    simp only [enter, hb, hy]
  | none =>
    obtain ⟨l, hl, hkl, hf⟩ := insert_new (x := ⟨calcTypeId t i, fd, i, true, x.info⟩) hkb hy
    refine ⟨_, ?_, .first hb hy hkl hf⟩
    simp only [enter, hb, hy, insertInst, hl]

theorem Enters.keyed {m' : SeverInstanceMgr} {t : UInt32} {p : Policy} {i fd : Int} (he : Enters m t p i fd m') :
    m'.infoContainer.Keyed := by
  obtain ⟨mb, x, hb, hkb, -⟩ := basic_spec h t p
  cases he with
  | again hb' hk =>
    cases hb.symm.trans hb'
    exact keyed_modify hkb _ _ _
  | first hb' hk hl hf => exact hl

theorem Enters.fdAt {m' : SeverInstanceMgr} {t : UInt32} {p : Policy} {i fd : Int}
    (he : Enters m t p i fd m') (k : Int) :
    m'.fdAt k = if k = calcTypeId t i then fd else m.fdAt k := by
  obtain ⟨mb, x, hb, hkb, -⟩ := basic_spec h t p
  cases he with
  | again hb' hk =>
    cases hb.symm.trans hb'
    rw [fdAt_modify hkb _ _ _ hk, basic_fdAt h hb]
  | first hb' hk hl hf =>
    cases hb.symm.trans hb'
    rw [← basic_fdAt h hb]
    unfold SeverInstanceMgr.fdAt
    simp only [hf]
    by_cases he : k = calcTypeId t i
    · simp [he]
    · simp [he]

end

/-- The login is accepted: the type has a policy and the id is not 0. -/
def Accepts (config : Option (List Policy)) (t : UInt32) (i : Int) : Prop := getPolicy config t ≠ none ∧ i ≠ 0

instance (config : Option (List Policy)) (t : UInt32) (i : Int) : Decidable (Accepts config t i) :=
  inferInstanceAs (Decidable (_ ∧ _))

theorem login_spec {m : SeverInstanceMgr} (h : m.infoContainer.Keyed) (t : UInt32) (i fd : Int) :
    (Accepts m.config t i ∧ ∃ p, getPolicy m.config t = some p ∧ Enters m t p i fd (m.loginInstance t i fd).1) ∨
      (¬ Accepts m.config t i ∧ (m.loginInstance t i fd).1 = m) := by
  unfold loginInstance Accepts
  cases hp : getPolicy m.config t with
  | none => simp
  | some p =>
    by_cases hi : i = 0
    · simp [hi]
    · obtain ⟨m', he, hen⟩ := enter_enters h t p i fd
      simpa [hi, he] using hen

theorem logout_spec (m : SeverInstanceMgr) (fd : Int) :
    ((fd = 0 ∨ ∀ x ∈ m.infoContainer, x.fd ≠ fd) ∧ m.logoutInstance fd = m) ∨
    (fd ≠ 0 ∧ ∃ x ∈ m.infoContainer, x.fd = fd ∧ m.logoutInstance fd = m.modify x.typeInst 0 false) := by
  unfold logoutInstance
  by_cases h0 : fd = 0
  · simp [h0]
  · cases hx : m.infoContainer.findFd fd with
    | none => exact Or.inl ⟨Or.inr (findFd_eq_none.mp hx), by simp [h0]⟩
    | some x =>
      obtain ⟨hm, hfd⟩ := findFd_eq_some hx
      exact Or.inr ⟨h0, x, hm, hfd, by simp [h0]⟩

/-! ## Sequences of calls -/

/-- The types and ids that a sequence of calls makes entries for. -/
def names (config : Option (List Policy)) (ops : List Op) : List (UInt32 × Int) :=
  ops.flatMap fun op => match op with
    | .login t i _ => if Accepts config t i then [(t, 0), (t, i)] else []
    | .logout _ => []

/-- No two of the names, and of the `asked` ones, have the same key. -/
def NoCollision (config : Option (List Policy)) (ops : List Op) (asked : List (UInt32 × Int)) : Prop :=
  ∀ x ∈ asked ++ names config ops, ∀ y ∈ asked ++ names config ops, calcTypeId x.1 x.2 = calcTypeId y.1 y.2 → x = y

/-- The instance has logged in with the descriptor. -/
def Entered (config : Option (List Policy)) (ops : List Op) (t : UInt32) (i fd : Int) : Prop :=
  .login t i fd ∈ ops ∧ Accepts config t i

def fdOfStep (config : Option (List Policy)) (t : UInt32) (i cur : Int) : Op → Int
  | .login t' i' fd => if t' = t ∧ i' = i ∧ Accepts config t' i' then fd else cur
  | .logout fd => if cur = fd then 0 else cur

/-- The descriptor of the instance's last login until that is logged out. -/
def fdOf (config : Option (List Policy)) (ops : List Op) (t : UInt32) (i : Int) : Int :=
  ops.foldl (fdOfStep config t i) 0

section
variable {config : Option (List Policy)} {ops : List Op} {op : Op} {t : UInt32} {i : Int}

theorem fdOf_concat : fdOf config (ops ++ [op]) t i = fdOfStep config t i (fdOf config ops t i) op := by
  simp [fdOf]

theorem names_concat : names config (ops ++ [op]) = names config ops ++ names config [op] := by
  simp [names]

theorem names_login {fd : Int} (ha : Accepts config t i) : names config [.login t i fd] = [(t, 0), (t, i)] := by
  simp [names, ha]

theorem NoCollision.left {ops' : List Op} {asked : List (UInt32 × Int)} (h : NoCollision config (ops ++ ops') asked) :
    NoCollision config ops asked := by
  have sub : ∀ x ∈ asked ++ names config ops, x ∈ asked ++ names config (ops ++ ops') := by
    intro x hx
    simp only [names, List.flatMap_append, List.mem_append] at hx ⊢
    exact hx.imp id Or.inl
  exact fun x hx y hy => h x (sub x hx) y (sub y hy)

theorem NoCollision.ask {asked : List (UInt32 × Int)} (h : NoCollision config ops [])
    (ha : ∀ x ∈ asked, x ∈ names config ops) :
    NoCollision config ops asked := by
  have sub : ∀ x ∈ asked ++ names config ops, x ∈ [] ++ names config ops := by
    intro x hx
    rcases List.mem_append.mp hx with hx | hx
    · exact ha x hx
    · exact hx
  exact fun x hx y hy => h x (sub x hx) y (sub y hy)

theorem NoCollision.eq {asked : List (UInt32 × Int)} (h : NoCollision config ops asked) (n n' : UInt32 × Int)
    (hn : n ∈ asked)
    (hn' : n' ∈ names config ops) (hk : calcTypeId n.1 n.2 = calcTypeId n'.1 n'.2) : n = n' :=
  h n (List.mem_append_left _ hn) n' (List.mem_append_right _ hn') hk

/-- Types below 2^22 with ids from 0 to 1023 have keys of their own. -/
theorem calcTypeId_inj {t t' : UInt32} {i i' : Int} (ht : t.toNat < 2 ^ 22) (ht' : t'.toNat < 2 ^ 22)
    (hi : 0 ≤ i ∧ i < 1024)
    (hi' : 0 ≤ i' ∧ i' < 1024) (h : calcTypeId t i = calcTypeId t' i') : (t, i) = (t', i') := by
  unfold calcTypeId i32 at h
  have hn : t.toNat = t'.toNat := by omega
  have hii : i = i' := by omega
  rw [UInt32.toNat_inj.mp hn, hii]

theorem noCollision_of_small {asked : List (UInt32 × Int)}
    (h : ∀ x ∈ asked ++ names config ops, x.1.toNat < 2 ^ 22 ∧ 0 ≤ x.2 ∧ x.2 < 1024) :
    NoCollision config ops asked := by
  intro x hx y hy hk
  obtain ⟨hx1, hx2⟩ := h x hx
  obtain ⟨hy1, hy2⟩ := h y hy
  exact calcTypeId_inj hx1 hy1 hx2 hy2 hk

theorem fdOf_entered (h : fdOf config ops t i ≠ 0) : Entered config ops t i (fdOf config ops t i) := by
  induction ops using List.reverseRecOn with
  | nil => simp [fdOf] at h
  | append_singleton ops op ih =>
    rw [fdOf_concat] at h ⊢
    have old : fdOf config ops t i ≠ 0 → Entered config (ops ++ [op]) t i (fdOf config ops t i) := fun h0 =>
      ⟨List.mem_append_left _ (ih h0).1, (ih h0).2⟩
    cases op with
    | login t' i' fd =>
      by_cases hc : t' = t ∧ i' = i ∧ Accepts config t' i'
      · obtain ⟨rfl, rfl, ha⟩ := hc
        simp [fdOfStep, Entered, ha]
      · simp only [fdOfStep, if_neg hc] at h ⊢
        exact old h
    | logout fd =>
      by_cases hc : fdOf config ops t i = fd
      · simp [fdOfStep, hc] at h
      · simp only [fdOfStep, if_neg hc] at h ⊢
        exact old h

theorem Entered.mem_names {fd : Int} (h : Entered config ops t i fd) : (t, i) ∈ names config ops := by
  obtain ⟨hm, ha⟩ := h
  exact List.mem_flatMap.mpr ⟨_, hm, by simp [ha]⟩

/-- What the table is like after a sequence of calls, by keys. -/
structure Table (config : Option (List Policy)) (ops : List Op) (m : SeverInstanceMgr) : Prop where
  conf : m.config = config
  keyed : m.infoContainer.Keyed
  entry : ∀ x ∈ m.infoContainer, ∃ n ∈ names config ops, x.typeInst = calcTypeId n.1 n.2
  fd : ∀ k, m.fdAt k ≠ 0 → ∃ t i, Entered config ops t i (m.fdAt k) ∧ calcTypeId t i = k

theorem fdAt_of_mem {m : SeverInstanceMgr} (h : m.infoContainer.Keyed) {x : SvrInstInfo} (hx : x ∈ m.infoContainer) :
    m.fdAt x.typeInst = x.fd := by
  simp [fdAt, (findType_eq_some h).mpr ⟨hx, rfl⟩]

theorem mem_of_fdAt {m : SeverInstanceMgr} (h : m.infoContainer.Keyed) {k : Int} (hk : m.fdAt k ≠ 0) :
    ∃ x ∈ m.infoContainer, x.typeInst = k ∧ x.fd = m.fdAt k := by
  unfold fdAt at hk ⊢
  cases hx : m.infoContainer.findType k with
  | none => simp [hx] at hk
  | some x =>
    obtain ⟨hm, hkx⟩ := (findType_eq_some h).mp hx
    exact ⟨x, hm, hkx, by simp⟩

theorem entry_basic {m m' : SeverInstanceMgr} (h : m.infoContainer.Keyed) {p : Policy} {x y : SvrInstInfo}
    (hb : m.basic t p = some (m', x)) (hy : y ∈ m'.infoContainer) : y ∈ m.infoContainer ∨
    y.typeInst = calcTypeId t 0 := by
  obtain ⟨m₁, x₁, hb₁, hk, -, -, hcase⟩ := basic_spec h t p
  cases hb.symm.trans hb₁
  rcases hcase with rfl | ⟨-, -, -, -, hf⟩
  · exact Or.inl hy
  · have hfy := (findType_eq_some hk).mpr ⟨hy, rfl⟩
    rw [hf] at hfy
    by_cases he : y.typeInst = calcTypeId t 0
    · exact Or.inr he
    · rw [if_neg he] at hfy
      exact Or.inl ((findType_eq_some h).mp hfy).1

theorem typeInst_modify {m : SeverInstanceMgr} (h : m.infoContainer.Keyed) {k fd : Int} {online : Bool}
    {y : SvrInstInfo}
    (hy : y ∈ (m.modify k fd online).infoContainer) : ∃ x ∈ m.infoContainer, y.typeInst = x.typeInst := by
  have hm := (modify_perm fd online k h []).mem_iff.mp hy
  obtain ⟨x, hx, rfl⟩ := List.mem_map.mp (by simpa using hm)
  exact ⟨x, hx, by simp⟩

theorem Enters.entry {m m' : SeverInstanceMgr} (h : m.infoContainer.Keyed) {p : Policy} {fd : Int} {y : SvrInstInfo}
    (he : Enters m t p i fd m') (hy : y ∈ m'.infoContainer) :
    (∃ x ∈ m.infoContainer, y.typeInst = x.typeInst) ∨ y.typeInst = calcTypeId t 0 ∨ y.typeInst = calcTypeId t i := by
  have old : ∀ {mb : SeverInstanceMgr} {x z : SvrInstInfo}, m.basic t p = some (mb, x) → z ∈ mb.infoContainer →
      y.typeInst = z.typeInst → (∃ x ∈ m.infoContainer, y.typeInst = x.typeInst) ∨ y.typeInst = calcTypeId t 0 ∨
        y.typeInst = calcTypeId t i := by
    intro mb x z hb hz hyz
    rcases entry_basic h hb hz with hz | hz
    · exact Or.inl ⟨z, hz, hyz⟩
    · exact Or.inr (Or.inl (hyz.trans hz))
  obtain ⟨mb, x, hb, hkb, -⟩ := basic_spec h t p
  cases he with
  | again hb' hk =>
    cases hb.symm.trans hb'
    obtain ⟨z, hz, hyz⟩ := typeInst_modify hkb hy
    exact old hb hz hyz
  | first hb' hk hl hf =>
    cases hb.symm.trans hb'
    have hfy := (findType_eq_some hl).mpr ⟨hy, rfl⟩
    rw [hf] at hfy
    by_cases hey : y.typeInst = calcTypeId t i
    · exact Or.inr (Or.inr hey)
    · rw [if_neg hey] at hfy
      exact old hb ((findType_eq_some hkb).mp hfy).1 rfl

theorem Enters.conf {m m' : SeverInstanceMgr} (h : m.infoContainer.Keyed) {p : Policy} {fd : Int}
    (he : Enters m t p i fd m') : m'.config = m.config := by
  obtain ⟨mb, x, hb, -, hc, -⟩ := basic_spec h t p
  cases he with
  | again hb' hk =>
    cases hb.symm.trans hb'
    exact hc
  | first hb' hk hl hf =>
    cases hb.symm.trans hb'
    exact hc

theorem table_login {m : SeverInstanceMgr} (h : Table config ops m) (fd : Int) :
    Table config (ops ++ [.login t i fd]) (m.loginInstance t i fd).1 := by
  have older : ∀ {t' i' fd'}, Entered config ops t' i' fd' →
    Entered config (ops ++ [.login t i fd]) t' i' fd' := fun he =>
    ⟨List.mem_append_left _ he.1, he.2⟩
  rcases login_spec h.keyed t i fd with ⟨ha, p, -, he⟩ | ⟨-, heq⟩
  · rw [h.conf] at ha
    refine ⟨(he.conf h.keyed).trans h.conf, he.keyed h.keyed, fun y hy => ?_, fun k hk => ?_⟩
    · rw [names_concat, names_login ha]
      rcases he.entry h.keyed hy with ⟨x, hx, hyx⟩ | hyt | hyi
      · obtain ⟨n, hn, hxn⟩ := h.entry x hx
        exact ⟨n, List.mem_append_left _ hn, hyx.trans hxn⟩
      · exact ⟨(t, 0), by simp, hyt⟩
      · exact ⟨(t, i), by simp, hyi⟩
    · rw [he.fdAt h.keyed] at hk ⊢
      by_cases hki : k = calcTypeId t i
      · exact ⟨t, i, by simp [Entered, hki, ha], hki.symm⟩
      · rw [if_neg hki] at hk ⊢
        obtain ⟨t', i', hen, hki'⟩ := h.fd k hk
        exact ⟨t', i', older hen, hki'⟩
  · rw [heq]
    refine ⟨h.conf, h.keyed, fun y hy => ?_, fun k hk => ?_⟩
    · obtain ⟨n, hn, hyn⟩ := h.entry y hy
      exact ⟨n, names_concat ▸ List.mem_append_left _ hn, hyn⟩
    · obtain ⟨t', i', hen, hki'⟩ := h.fd k hk
      exact ⟨t', i', older hen, hki'⟩

theorem table_logout {m : SeverInstanceMgr} (h : Table config ops m) (fd : Int) :
    Table config (ops ++ [.logout fd]) (m.logoutInstance fd) := by
  have hnames : names config (ops ++ [.logout fd]) = names config ops := by simp [names]
  have older : ∀ {t' i' fd'}, Entered config ops t' i' fd' →
    Entered config (ops ++ [.logout fd]) t' i' fd' := fun he =>
    ⟨List.mem_append_left _ he.1, he.2⟩
  rcases logout_spec m fd with ⟨-, heq⟩ | ⟨h0, x, hx, hfd, heq⟩
  · rw [heq]
    refine ⟨h.conf, h.keyed, by rw [hnames]; exact h.entry, fun k hk => ?_⟩
    obtain ⟨t', i', hen, hki'⟩ := h.fd k hk
    exact ⟨t', i', older hen, hki'⟩
  · rw [heq]
    have hkx : m.infoContainer.findType x.typeInst ≠ none := by simp [(findType_eq_some h.keyed).mpr ⟨hx, rfl⟩]
    refine ⟨h.conf, keyed_modify h.keyed _ _ _, fun y hy => ?_, fun k hk => ?_⟩
    · obtain ⟨z, hz, hyz⟩ := typeInst_modify h.keyed hy
      rw [hnames, hyz]
      exact h.entry z hz
    · rw [fdAt_modify h.keyed _ _ _ hkx] at hk ⊢
      by_cases hki : k = x.typeInst
      · simp [hki] at hk
      · rw [if_neg hki] at hk ⊢
        obtain ⟨t', i', hen, hki'⟩ := h.fd k hk
        exact ⟨t', i', older hen, hki'⟩

theorem table_after (config : Option (List Policy)) (ops : List Op) : Table config ops (after config ops) := by
  induction ops using List.reverseRecOn with
  | nil =>
    refine ⟨rfl, List.nodup_nil, fun x hx => (by cases hx), fun k hk => ?_⟩
    simp [fdAt, init, findType] at hk
  | append_singleton ops op ih =>
    rw [after_concat]
    cases op with
    | login t i fd => exact table_login ih fd
    | logout fd => exact table_logout ih fd

/-! ## The descriptor that is found -/

/-- The table gives the descriptors of the last logins, for all that have a key of their own. -/
def Lawful (config : Option (List Policy)) (ops : List Op) : Prop :=
  ∀ t i, NoCollision config ops [(t, i)] → (after config ops).getFdByTypeId t i = fdOf config ops t i

/-- At most one instance is there with the descriptor. -/
def AtMostOne (config : Option (List Policy)) (ops : List Op) (fd : Int) : Prop :=
  ∀ t i t' i', fdOf config ops t i = fd → fdOf config ops t' i' = fd → (t, i) = (t', i')

theorem lawful_login (h : Lawful config ops) (t : UInt32) (i fd : Int) : Lawful config (ops ++ [.login t i fd]) := by
  intro t' i' hn
  have htab := table_after config ops
  have hold := h t' i' hn.left
  rw [getFdByTypeId_eq] at hold ⊢
  rw [after_concat, fdOf_concat]
  simp only [apply]
  rcases login_spec htab.keyed t i fd with ⟨ha, p, -, he⟩ | ⟨ha, heq⟩
  · rw [htab.conf] at ha
    rw [he.fdAt htab.keyed]
    by_cases hk : calcTypeId t' i' = calcTypeId t i
    · obtain ⟨rfl, rfl⟩ := Prod.mk.inj (hn.eq (t', i') (t, i) (by simp) (by simp [names_concat, names_login ha]) hk)
      simp [fdOfStep, ha]
    · have hne : ¬ (t = t' ∧ i = i' ∧ Accepts config t i) := by
        rintro ⟨rfl, rfl, -⟩
        exact hk rfl
      simp [hk, fdOfStep, hne, hold]
  · rw [htab.conf] at ha
    simp [heq, fdOfStep, ha, hold]

theorem lawful_logout (h : Lawful config ops) (hn : NoCollision config ops []) {fd : Int}
    (h1 : fd ≠ 0 → AtMostOne config ops fd) :
    Lawful config (ops ++ [.logout fd]) := by
  intro t i hni
  have htab := table_after config ops
  have hold := h t i hni.left
  rw [getFdByTypeId_eq] at hold ⊢
  rw [after_concat, fdOf_concat]
  simp only [apply]
  rcases logout_spec (after config ops) fd with ⟨hnone, heq⟩ | ⟨h0, x, hx, hfd, heq⟩
  · simp only [heq, fdOfStep, hold]
    by_cases hc : fdOf config ops t i = fd
    · rcases hnone with rfl | hnone
      · simp [hc]
      · by_cases h0 : fd = 0
        · simp [hc, h0]
        · obtain ⟨y, hy, -, hyfd⟩ := mem_of_fdAt htab.keyed (hold.trans hc ▸ h0)
          exact absurd (hyfd.trans (hold.trans hc)) (hnone y hy)
    · simp [hc]
  · obtain ⟨n, hnames, hxk⟩ := htab.entry x hx
    have hkx : (after config ops).infoContainer.findType x.typeInst ≠ none := by
      simp [(findType_eq_some htab.keyed).mpr ⟨hx, rfl⟩]
    have hfdx : fdOf config ops n.1 n.2 = fd := by
      have := h n.1 n.2 (hn.ask (by simpa using hnames))
      rw [getFdByTypeId_eq, ← hxk, fdAt_of_mem htab.keyed hx] at this
      exact this.symm.trans hfd
    rw [heq, fdAt_modify htab.keyed _ _ _ hkx]
    by_cases hk : calcTypeId t i = x.typeInst
    · have hni' := hni.left.eq (t, i) n (by simp) hnames (hk.trans hxk)
      rw [← hni'] at hfdx
      simp [hk, fdOfStep, hfdx]
    · have hne : fdOf config ops t i ≠ fd := by
        intro hc
        have he : (t, i) = n := h1 h0 t i n.1 n.2 hc hfdx
        exact hk (by rw [hxk, ← he])
      simp [hk, fdOfStep, hne, hold]

theorem lawful_of_atMostOne (hn : NoCollision config ops [])
    (h : ∀ h₁ fd h₂, ops = h₁ ++ .logout fd :: h₂ → fd ≠ 0 → AtMostOne config h₁ fd) : Lawful config ops := by
  induction ops using List.reverseRecOn with
  | nil =>
    intro t i _
    simp [getFdByTypeId_eq, fdAt, init, findType, fdOf]
  | append_singleton ops op ih =>
    have hlaw := ih hn.left fun h₁ fd h₂ he => h h₁ fd (h₂ ++ [op]) (by simp [he])
    cases op with
    | login t i fd => exact lawful_login hlaw t i fd
    | logout fd => exact lawful_logout hlaw hn.left (h ops fd [] rfl)

theorem atMostOne_of_lawful {fd : Int} (hn : NoCollision config ops []) (h : Lawful config ops)
    (h' : Lawful config (ops ++ [.logout fd])) (h0 : fd ≠ 0) : AtMostOne config ops fd := by
  intro t i t' i' hfd hfd'
  have htab := table_after config ops
  have mem : ∀ {t i}, fdOf config ops t i = fd → (t, i) ∈ names config ops := fun he =>
    (fdOf_entered (he ▸ h0)).mem_names
  have before : ∀ {t i}, fdOf config ops t i = fd → (after config ops).fdAt (calcTypeId t i) = fd := by
    intro t i he
    rw [← getFdByTypeId_eq, h t i (hn.ask (by simpa using mem he)), he]
  have cleared : ∀ {t i}, fdOf config ops t i = fd → ((after config ops).logoutInstance fd).fdAt (calcTypeId t i) = 0 := by
    intro t i he
    have hn' : NoCollision config (ops ++ [.logout fd]) [(t, i)] := by
      have : NoCollision config (ops ++ [.logout fd]) [] := by simpa [NoCollision, names] using hn
      exact this.ask (by simpa [names_concat] using Or.inl (mem he))
    have hz := h' t i hn'
    rw [getFdByTypeId_eq, after_concat, fdOf_concat] at hz
    simpa [apply, fdOfStep, he] using hz
  rcases logout_spec (after config ops) fd with ⟨-, heq⟩ | ⟨-, x, hx, -, heq⟩
  · have hz := cleared hfd
    rw [heq, before hfd] at hz
    exact absurd hz h0
  · have hkx : (after config ops).infoContainer.findType x.typeInst ≠ none := by
      simp [(findType_eq_some htab.keyed).mpr ⟨hx, rfl⟩]
    have key : ∀ {t i}, fdOf config ops t i = fd → calcTypeId t i = x.typeInst := by
      intro t i he
      have hz := cleared he
      rw [heq, fdAt_modify htab.keyed _ _ _ hkx, before he] at hz
      by_contra hne
      simp [hne, h0] at hz
    have hask : NoCollision config ops [(t, i)] := hn.ask (by simpa using mem hfd)
    exact hask.eq (t, i) (t', i') (by simp) (mem hfd') ((key hfd).trans (key hfd').symm)

/-- In a sequence of calls without colliding keys the table gives at every point the descriptors of the last
logins if and only if at each logout at most one instance is there with its descriptor. -/
theorem registry_lawful (hn : NoCollision config ops []) : (∀ h₁ h₂, ops = h₁ ++ h₂ → Lawful config h₁) ↔
    ∀ h₁ fd h₂, ops = h₁ ++ .logout fd :: h₂ → fd ≠ 0 → AtMostOne config h₁ fd := by
  constructor
  · intro h h₁ fd h₂ he h0
    rw [he] at hn
    exact atMostOne_of_lawful hn.left (h h₁ _ he) (h (h₁ ++ [.logout fd]) h₂ (by simp [he])) h0
  · intro h h₁ h₂ he
    rw [he] at hn
    exact lawful_of_atMostOne hn.left fun h₁' fd h₂' he' => h h₁' fd (h₂' ++ h₂) (by simp [he, he'])

end

/-- Two server types, the first with the policy `RANDOM` and the second with `MOD`. -/
def twoTypes : Option (List Policy) := some [⟨1, POLICY_RANDOM⟩, ⟨2, POLICY_MOD⟩]

/-- The logout of its old descriptor leaves an instance that has come back on another. -/
theorem registry_lawful_one : Lawful twoTypes [.login 1 7 5, .login 1 7 6, .logout 5] := by
  refine (registry_lawful (noCollision_of_small (by decide))).mpr (fun h₁ fd h₂ he h0 => ?_) _ [] rfl
  have hone : h₁ = [.login 1 7 5, .login 1 7 6] ∧ fd = 5 := by
    rcases h₁ with _ | ⟨a, _ | ⟨b, _ | ⟨c, h₁⟩⟩⟩
    · simp at he
    · simp at he
    · simp at he
      simp [← he]
    · simp at he
  obtain ⟨rfl, rfl⟩ := hone
  intro t i t' i' hfd
  simp only [fdOf, fdOfStep, List.foldl_cons, List.foldl_nil] at hfd
  split at hfd <;> omega

/-- Two instances have logged in over one connection, and its end is noted for the first alone. -/
theorem second_instance_kept : NoCollision twoTypes [.login 1 7 5, .login 1 8 5, .logout 5] [] ∧
    ¬ Lawful twoTypes [.login 1 7 5, .login 1 8 5, .logout 5] := by
  refine ⟨noCollision_of_small (by decide), fun h => ?_⟩
  have h8 := h 1 8 (noCollision_of_small (by decide))
  revert h8
  decide

end SeverInstanceMgr

end GlobalServer
