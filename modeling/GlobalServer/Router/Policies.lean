import GlobalServer.Router.Registry

/-!
# The instances that a policy chooses from

The entries of a server type share one `InstContainer`, with the type's
policy and the ids that have logged in as that type, as long as keys do not
collide. Logouts take no id out.
-/

namespace GlobalServer

open Bytes

namespace SeverInstanceMgr

open SvrInstInfoContainer

/-- The instance has logged in. -/
def LoggedIn (config : Option (List Policy)) (ops : List Op) (t : UInt32) (i : Int) : Prop :=
    ∃ fd, Entered config ops t i fd

/-- The entries are those of the names in `N`, those of a type share the `InstContainer` at `addr`, and that has
the type's policy and the ids in `L`. -/
structure Shared (config : Option (List Policy)) (N L : UInt32 → Int → Prop) (addr : UInt32 → Nat)
    (m : SeverInstanceMgr) : Prop where
  entry : ∀ k, m.infoContainer.findType k ≠ none → ∃ t i, N t i ∧ calcTypeId t i = k
  find : ∀ t i, N t i → ∃ x, m.infoContainer.findType (calcTypeId t i) = some x ∧ x.info = addr t
  lt : ∀ t i, N t i → addr t < m.infoTop
  inj : ∀ t i t' i', N t i → N t' i' → addr t = addr t' → t = t'
  info : ∀ t i, N t i → ∃ p, getPolicy config t = some p ∧ (m.info (addr t)).policy = p.policy ∧
    OrdMap.Sorted (m.info (addr t)).instSet ∧ ∀ j, (j, ()) ∈ (m.info (addr t)).instSet ↔ L t j

section
variable {config : Option (List Policy)} {N L : UInt32 → Int → Prop} {addr : UInt32 → Nat} {m m' : SeverInstanceMgr}
  {t : UInt32} {p : Policy}

theorem Shared.congr {N' L' : UInt32 → Int → Prop} (h : Shared config N L addr m) (hN : ∀ t i, N' t i ↔ N t i)
    (hL : ∀ t i, L' t i ↔ L t i) : Shared config N' L' addr m := by
  obtain rfl : N' = N := funext fun t => funext fun i => propext (hN t i)
  obtain rfl : L' = L := funext fun t => funext fun i => propext (hL t i)
  exact h

theorem shared_basic (hk : m.infoContainer.Keyed) (h : Shared config N L addr m) (hp : getPolicy config t = some p)
    (hL : ∀ j, L t j → N t 0) (hN : ∀ i, N t i → N t 0)
    (hsep : ∀ t' i', N t' i' → calcTypeId t' i' = calcTypeId t 0 → t' = t ∧ i' = 0) {x : SvrInstInfo}
    (hb : m.basic t p = some (m', x)) :
    ∃ addr', Shared config (fun t' i' => N t' i' ∨ (t' = t ∧ i' = 0)) L addr' m' ∧ x.info = addr' t := by
  obtain ⟨m₁, x₁, hb₁, -, -, hfx, hcase⟩ := basic_spec hk t p
  cases hb.symm.trans hb₁
  rcases hcase with rfl | ⟨hnone, htop, hinfo, rfl, hf⟩
  · have h0 : N t 0 := by
      obtain ⟨t', i', hn, hkey⟩ := h.entry (calcTypeId t 0) (by simp [hfx])
      obtain ⟨rfl, rfl⟩ := hsep t' i' hn hkey
      exact hn
    have hor : ∀ t' i', N t' i' ∨ (t' = t ∧ i' = 0) → N t' i' := by
      rintro t' i' (hn | ⟨rfl, rfl⟩)
      · exact hn
      · exact h0
    refine ⟨addr, h.congr (fun t' i' => ⟨hor t' i', .inl⟩) fun _ _ => Iff.rfl, ?_⟩
    obtain ⟨y, hy, hya⟩ := h.find t 0 h0
    cases hfx.symm.trans hy
    exact hya
  · -- the type has no entry yet, so its `InstContainer` is new and empty
    have hno : ¬ N t 0 := by
      intro h0
      obtain ⟨y, hy, -⟩ := h.find t 0 h0
      simp [hnone] at hy
    have hne : ∀ t' i', N t' i' → t' ≠ t := by
      rintro t' i' hn rfl
      exact hno (hN i' hn)
    have hkey : ∀ t' i', N t' i' → calcTypeId t' i' ≠ calcTypeId t 0 :=
      fun t' i' hn he => hne t' i' hn (hsep t' i' hn he).1
    refine ⟨Function.update addr t m.infoTop, ⟨?_, ?_, ?_, ?_, ?_⟩, by simp [typeEntry]⟩
    · intro k hk'
      rw [hf] at hk'
      by_cases he : k = calcTypeId t 0
      · exact ⟨t, 0, Or.inr ⟨rfl, rfl⟩, he.symm⟩
      · rw [if_neg he] at hk'
        obtain ⟨t', i', hn, hke⟩ := h.entry k hk'
        exact ⟨t', i', Or.inl hn, hke⟩
    · rintro t' i' (hn | ⟨rfl, rfl⟩)
      · rw [hf, if_neg (hkey t' i' hn), Function.update_of_ne (hne t' i' hn)]
        exact h.find t' i' hn
      · exact ⟨_, hfx, by simp [typeEntry]⟩
    · rw [htop]
      rintro t' i' (hn | ⟨rfl, rfl⟩)
      · rw [Function.update_of_ne (hne t' i' hn)]
        exact Nat.lt_succ_of_lt (h.lt t' i' hn)
      · simp
    · rintro t₁ i₁ t₂ i₂ (hn₁ | ⟨rfl, rfl⟩) (hn₂ | ⟨rfl, rfl⟩) he
      · rw [Function.update_of_ne (hne t₁ i₁ hn₁), Function.update_of_ne (hne t₂ i₂ hn₂)] at he
        exact h.inj t₁ i₁ t₂ i₂ hn₁ hn₂ he
      · rw [Function.update_of_ne (hne t₁ i₁ hn₁), Function.update_self] at he
        exact absurd (h.lt t₁ i₁ hn₁) (by simp [he])
      · rw [Function.update_of_ne (hne t₂ i₂ hn₂), Function.update_self] at he
        exact absurd (h.lt t₂ i₂ hn₂) (by simp [← he])
      · rfl
    · rw [hinfo]
      rintro t' i' (hn | ⟨rfl, rfl⟩)
      · have hlt := h.lt t' i' hn
        rw [Function.update_of_ne (hne t' i' hn), Function.update_of_ne (Nat.ne_of_lt hlt)]
        exact h.info t' i' hn
      · refine ⟨p, hp, by simp, by simpa using OrdMap.sorted_nil, fun j => ?_⟩
        simpa using fun hj => hno (hL j hj)

theorem shared_modify (hk : m.infoContainer.Keyed) (h : Shared config N L addr m) (typeInst fd : Int)
    (online : Bool) :
    Shared config N L addr (m.modify typeInst fd online) := by
  have hf : ∀ k, (m.modify typeInst fd online).infoContainer.findType k =
      (m.infoContainer.findType k).map (setFd typeInst fd online) := findType_modify hk fd online typeInst
  refine ⟨fun k hk' => ?_, fun t i hn => ?_, h.lt, h.inj, h.info⟩
  · rw [hf] at hk'
    exact h.entry k (by simpa using hk')
  · obtain ⟨x, hx, ha⟩ := h.find t i hn
    exact ⟨_, by rw [hf, hx]; rfl, by simpa using ha⟩

theorem shared_first {l : SvrInstInfoContainer} {x : SvrInstInfo} {i fd : Int}
    (h : Shared config N L addr m) (h0 : N t 0)
    (hx : x.info = addr t)
    (hf : ∀ k, l.findType k =
      if k = calcTypeId t i then some ⟨calcTypeId t i, fd, i, true, x.info⟩ else m.infoContainer.findType k)
    (hsep : ∀ t' i', N t' i' → calcTypeId t' i' = calcTypeId t i → t' = t ∧ i' = i) :
    Shared config (fun t' i' => N t' i' ∨ (t' = t ∧ i' = i)) (fun t' i' => L t' i' ∨ (t' = t ∧ i' = i)) addr
      { m.insertInst x.info i with infoContainer := l } := by
  obtain ⟨p, hp, hpol, hsort, hids⟩ := h.info t 0 h0
  refine ⟨?_, ?_, ?_, ?_, ?_⟩
  · intro k hk
    simp only [hf] at hk
    by_cases he : k = calcTypeId t i
    · exact ⟨t, i, Or.inr ⟨rfl, rfl⟩, he.symm⟩
    · rw [if_neg he] at hk
      obtain ⟨t', i', hn, hke⟩ := h.entry k hk
      exact ⟨t', i', Or.inl hn, hke⟩
  · rintro t' i' (hn | ⟨rfl, rfl⟩)
    · simp only [hf]
      by_cases he : calcTypeId t' i' = calcTypeId t i
      · obtain ⟨rfl, rfl⟩ := hsep t' i' hn he
        exact ⟨_, if_pos rfl, hx⟩
      · rw [if_neg he]
        exact h.find t' i' hn
    · simp only [hf]
      exact ⟨_, if_pos trivial, hx⟩
  · rintro t' i' (hn | ⟨rfl, rfl⟩)
    · exact h.lt t' i' hn
    · exact h.lt t' 0 h0
  · rintro t₁ i₁ t₂ i₂ (hn₁ | ⟨rfl, rfl⟩) (hn₂ | ⟨rfl, rfl⟩) he
    · exact h.inj t₁ i₁ t₂ i₂ hn₁ hn₂ he
    · exact h.inj t₁ i₁ t₂ 0 hn₁ h0 he
    · exact h.inj t₁ 0 t₂ i₂ h0 hn₂ he
    · rfl
  · have hself : ∃ p, getPolicy config t = some p ∧
        (Function.update m.info x.info { m.info x.info with instSet := OrdMap.insert i () (m.info x.info).instSet } (addr t)).policy =
          p.policy ∧
        OrdMap.Sorted (Function.update m.info x.info
          { m.info x.info with instSet := OrdMap.insert i () (m.info x.info).instSet } (addr t)).instSet ∧
        ∀ j, (j, ()) ∈ (Function.update m.info x.info
          { m.info x.info with instSet := OrdMap.insert i () (m.info x.info).instSet } (addr t)).instSet ↔ L t j ∨
          (t = t ∧ j = i) := by
      rw [hx, Function.update_self]
      refine ⟨p, hp, hpol, OrdMap.sorted_insert hsort, fun j => ?_⟩
      rw [OrdMap.mem_insert_iff hsort, hids]
      simp [or_comm]
    rintro t' i' (hn | ⟨rfl, rfl⟩)
    · by_cases he : t' = t
      · subst he
        exact hself
      · have hne : addr t' ≠ addr t := fun ha => he (h.inj t' i' t 0 hn h0 ha)
        have hL : ∀ j, L t' j ∨ (t' = t ∧ j = i) ↔ L t' j := by simp [he]
        simp only [insertInst, hx, Function.update_of_ne hne, hL]
        exact h.info t' i' hn
    · exact hself

end

section
variable {config : Option (List Policy)} {ops : List Op} {t : UInt32} {i : Int}

theorem mem_names : (t, i) ∈ names config ops ↔ ∃ j, LoggedIn config ops t j ∧ (i = 0 ∨ i = j) := by
  constructor
  · intro hm
    obtain ⟨op, hop, hm⟩ := List.mem_flatMap.mp hm
    cases op with
    | login t' i' fd =>
      by_cases ha : Accepts config t' i'
      · simp only [if_pos ha, List.mem_cons, Prod.mk.injEq, List.not_mem_nil, or_false] at hm
        rcases hm with ⟨rfl, rfl⟩ | ⟨rfl, rfl⟩
        · exact ⟨i', ⟨fd, hop, ha⟩, Or.inl rfl⟩
        · exact ⟨i, ⟨fd, hop, ha⟩, Or.inr rfl⟩
      · simp [ha] at hm
    | logout fd => simp at hm
  · rintro ⟨j, ⟨fd, hop, ha⟩, hi⟩
    exact List.mem_flatMap.mpr ⟨_, hop, by simpa [ha] using hi⟩

theorem loggedIn_login {fd : Int} {t' : UInt32} {j : Int} (ha : Accepts config t i) :
    LoggedIn config (ops ++ [.login t i fd]) t' j ↔ LoggedIn config ops t' j ∨ (t' = t ∧ j = i) := by
  constructor
  · rintro ⟨fd', hm, ha'⟩
    rcases List.mem_append.mp hm with hm | hm
    · exact Or.inl ⟨fd', hm, ha'⟩
    · cases List.mem_singleton.mp hm
      exact Or.inr ⟨rfl, rfl⟩
  · rintro (⟨fd', hm, ha'⟩ | ⟨rfl, rfl⟩)
    · exact ⟨fd', List.mem_append_left _ hm, ha'⟩
    · exact ⟨fd, by simp, ha⟩

theorem loggedIn_other {op : Op} {t' : UInt32} {j : Int} (h : ∀ t i fd, op = .login t i fd → ¬ Accepts config t i) :
    LoggedIn config (ops ++ [op]) t' j ↔ LoggedIn config ops t' j := by
  constructor
  · rintro ⟨fd', hm, ha'⟩
    rcases List.mem_append.mp hm with hm | hm
    · exact ⟨fd', hm, ha'⟩
    · exact absurd ha' (h t' j fd' (List.mem_singleton.mp hm).symm)
  · rintro ⟨fd', hm, ha'⟩
    exact ⟨fd', List.mem_append_left _ hm, ha'⟩

theorem names_other {op : Op} {t' : UInt32} {j : Int} (h : ∀ t i fd, op = .login t i fd → ¬ Accepts config t i) :
    (t', j) ∈ names config (ops ++ [op]) ↔ (t', j) ∈ names config ops := by
  rw [mem_names, mem_names]
  simp only [loggedIn_other h]

theorem shared_login {addr : UInt32 → Nat} {m m' : SeverInstanceMgr} {p : Policy} {fd : Int}
    (hk : m.infoContainer.Keyed)
    (h : Shared config (fun t i => (t, i) ∈ names config ops) (LoggedIn config ops) addr m) (ha : Accepts config t i)
    (hp : getPolicy config t = some p) (hn : NoCollision config (ops ++ [.login t i fd]) [])
    (he : Enters m t p i fd m') :
    ∃ addr', Shared config (fun t' i' => (t', i') ∈ names config (ops ++ [.login t i fd]))
      (LoggedIn config (ops ++ [.login t i fd])) addr' m' := by
  have hnew : names config (ops ++ [.login t i fd]) = names config ops ++ [(t, 0), (t, i)] := by
    rw [names_concat, names_login ha]
  have sep : ∀ j, (j = 0 ∨ j = i) → ∀ t' i', ((t', i') ∈ names config ops ∨ (t' = t ∧ i' = 0)) →
      calcTypeId t' i' = calcTypeId t j → t' = t ∧ i' = j := by
    intro j hj t' i' hm hkey
    refine Prod.mk.inj (hn (t', i') ?_ (t, j) ?_ hkey)
    · rw [hnew]
      simpa using hm.imp id Or.inl
    · rw [hnew]
      simpa using Or.inr hj
  obtain ⟨mb, x, hb, hkb, -, hfx, -⟩ := basic_spec hk t p
  obtain ⟨addr', hbase, hxa⟩ := shared_basic hk h hp (fun j hj => mem_names.mpr ⟨j, hj, Or.inl rfl⟩)
    (fun j hj => by
      obtain ⟨j', hj', -⟩ := mem_names.mp hj
      exact mem_names.mpr ⟨j', hj', Or.inl rfl⟩)
    (fun t' i' hm => sep 0 (Or.inl rfl) t' i' (Or.inl hm)) hb
  cases he with
  | again hb' hke =>
    cases hb.symm.trans hb'
    -- the key's entry is that of the instance itself, which has logged in before
    obtain ⟨t', i', hm, hkey⟩ := hbase.entry _ hke
    obtain ⟨rfl, rfl⟩ := sep i (Or.inr rfl) t' i' hm hkey
    have hold : (t', i') ∈ names config ops := hm.resolve_right fun h0 => ha.2 h0.2
    have hin : LoggedIn config ops t' i' := by
      obtain ⟨j, hj, hij⟩ := mem_names.mp hold
      rcases hij with h0 | rfl
      · exact absurd h0 ha.2
      · exact hj
    refine ⟨addr', Shared.congr (shared_modify hkb hbase _ _ _) (fun t₁ i₁ => ?_) (fun t₁ i₁ => ?_)⟩
    · rw [hnew]
      simp only [List.mem_append, List.mem_cons, Prod.mk.injEq, List.not_mem_nil, or_false]
      constructor
      · rintro (hm | hm | ⟨rfl, rfl⟩)
        · exact Or.inl hm
        · exact Or.inr hm
        · exact Or.inl hold
      · rintro (hm | hm)
        · exact Or.inl hm
        · exact Or.inr (Or.inl hm)
    · rw [loggedIn_login ha]
      constructor
      · rintro (hl | ⟨rfl, rfl⟩)
        · exact hl
        · exact hin
      · exact Or.inl
  | first hb' hke hl hf =>
    cases hb.symm.trans hb'
    refine ⟨addr', Shared.congr (shared_first hbase (Or.inr ⟨rfl, rfl⟩) hxa hf (sep i (Or.inr rfl))) (fun t₁ i₁ => ?_)
      fun t₁ i₁ => loggedIn_login ha⟩
    rw [hnew]
    simp [or_assoc]

theorem shared_after (hn : NoCollision config ops []) : ∃ addr, Shared config (fun t i => (t, i) ∈ names config ops)
    (LoggedIn config ops) addr (after config ops) := by
  induction ops using List.reverseRecOn with
  | nil =>
    refine ⟨fun _ => 0, ⟨?_, ?_, ?_, ?_, ?_⟩⟩
    · intro k hk
      simp [init, findType] at hk
    all_goals simp [names]
  | append_singleton ops op ih =>
    obtain ⟨addr, h⟩ := ih hn.left
    have htab := table_after config ops
    rw [after_concat]
    cases op with
    | login t i fd =>
      simp only [apply]
      rcases login_spec htab.keyed t i fd with ⟨ha, p, hp, he⟩ | ⟨ha, heq⟩
      · rw [htab.conf] at ha hp
        exact shared_login htab.keyed h ha hp hn he
      · rw [htab.conf] at ha
        have hno : ∀ t' i' fd', Op.login t i fd = .login t' i' fd' → ¬ Accepts config t' i' := by
          rintro t' i' fd' ⟨⟩
          exact ha
        rw [heq]
        exact ⟨addr, h.congr (fun _ _ => names_other hno) fun _ _ => loggedIn_other hno⟩
    | logout fd =>
      simp only [apply]
      have hno : ∀ t' i' fd', Op.logout fd = .login t' i' fd' → ¬ Accepts config t' i' := by
        rintro t' i' fd' ⟨⟩
      rcases logout_spec (after config ops) fd with ⟨-, heq⟩ | ⟨-, x, -, -, heq⟩
      · rw [heq]
        exact ⟨addr, h.congr (fun _ _ => names_other hno) fun _ _ => loggedIn_other hno⟩
      · rw [heq]
        exact ⟨addr, (shared_modify htab.keyed h _ _ _).congr (fun _ _ => names_other hno) fun _ _ => loggedIn_other hno⟩

theorem routerPolicy_after (hn : NoCollision config ops [(t, 0)]) :
    ∃ all : List Int, (∀ j, j ∈ all ↔ LoggedIn config ops t j) ∧
    all.Pairwise (· < ·) ∧ ∀ uid b, (after config ops).routerPolicy uid t b [] = match getPolicy config t with
      | none => []
      | some p => choose p.policy uid b all [] := by
  have hn' : NoCollision config ops [] := fun x hx y hy => hn x (List.mem_cons_of_mem _ hx) y (List.mem_cons_of_mem _ hy)
  obtain ⟨addr, h⟩ := shared_after hn'
  by_cases hm : (t, 0) ∈ names config ops
  · obtain ⟨x, hx, hxa⟩ := h.find t 0 hm
    obtain ⟨p, hp, hpol, hsort, hids⟩ := h.info t 0 hm
    refine ⟨((after config ops).info (addr t)).instSet.map Prod.fst, fun j => ?_, List.pairwise_map.mpr hsort,
      fun uid b => ?_⟩
    · rw [← hids, OrdMap.mem_keys]
    · simp [routerPolicy, hx, hxa, hp, hpol]
  · have hnone : (after config ops).infoContainer.findType (calcTypeId t 0) = none := by
      by_contra hne
      obtain ⟨t', i', hm', hkey⟩ := h.entry _ hne
      rw [hn.eq (t, 0) (t', i') (by simp) hm' hkey.symm] at hm
      exact hm hm'
    refine ⟨[], fun j => ?_, List.Pairwise.nil, fun uid b => ?_⟩
    · simp only [List.not_mem_nil, false_iff]
      exact fun hj => hm (mem_names.mpr ⟨j, hj, Or.inl rfl⟩)
    · cases getPolicy config t <;> simp [routerPolicy, hnone, choose]

theorem mem_choose {policy : UInt32} {uid : UInt64} {b : Bool} {all : List Int} {j : Int}
    (hj : j ∈ choose policy uid b all []) :
    j ∈ all := by
  unfold choose at hj
  split at hj
  · cases hj
  · split at hj
    · exact hj
    · split at hj
      · exact List.mem_of_mem_take (by simpa using hj)
      · split at hj
        · exact List.mem_of_getElem? (by simpa using hj)
        · split at hj
          · exact hj
          · cases hj

/-- The type's instances are those that logged in as that type, under its own policy, and the descriptor of an
instance is one that it logged in on. -/
structure Isolated (config : Option (List Policy)) (ops : List Op) (t : UInt32) (i : Int) : Prop where
  ids : ∀ uid b, ∀ j ∈ (after config ops).routerPolicy uid t b [], LoggedIn config ops t j
  policy : ∃ all : List Int, (∀ j, j ∈ all ↔ LoggedIn config ops t j) ∧ all.Pairwise (· < ·) ∧
    ∀ uid b, (after config ops).routerPolicy uid t b [] = match getPolicy config t with
      | none => []
      | some p => choose p.policy uid b all []
  fd : (after config ops).getFdByTypeId t i = 0 ∨ Entered config ops t i ((after config ops).getFdByTypeId t i)

/-- As long as no two of the instances that have logged in, of their types and of the instance asked for have
one key, types do not interfere. -/
theorem isolated (hn : NoCollision config ops [(t, 0), (t, i)]) : Isolated config ops t i := by
  have hn0 : NoCollision config ops [(t, 0)] := fun x hx y hy =>
    hn x (by simp at hx ⊢; tauto) y (by simp at hy ⊢; tauto)
  have hall := routerPolicy_after hn0
  refine ⟨fun uid b j hj => ?_, hall, ?_⟩
  · obtain ⟨all, hmem, -, hr⟩ := hall
    rw [hr] at hj
    cases hp : getPolicy config t with
    | none => simp [hp] at hj
    | some p =>
      rw [hp] at hj
      exact (hmem j).mp (mem_choose hj)
  · rw [getFdByTypeId_eq]
    by_cases h0 : (after config ops).fdAt (calcTypeId t i) = 0
    · exact Or.inl h0
    · obtain ⟨t', i', hen, hkey⟩ := (table_after config ops).fd _ h0
      obtain ⟨rfl, rfl⟩ := Prod.mk.inj (hn.eq (t, i) _ (by simp) hen.mem_names hkey.symm)
      exact Or.inr hen

end

theorem isolated_two : Isolated twoTypes [.login 1 7 5, .login 2 7 6, .logout 5] 2 7 :=
  isolated (noCollision_of_small (by decide))

/-- The instance 1024 of the type 1 has the key that the type 2 keeps for itself. -/
theorem isolated_not : ¬ Isolated twoTypes [.login 1 1024 5, .login 2 7 6] 2 7 := by
  intro h
  have hm : (1024 : Int) ∈ (after twoTypes [.login 1 1024 5, .login 2 7 6]).routerPolicy 0 2 true [] := by decide
  obtain ⟨fd, hen, -⟩ := h.ids 0 true 1024 hm
  simp at hen

end SeverInstanceMgr

end GlobalServer
