import Mathlib.Data.List.Basic
import Mathlib.Data.List.Induction

/-!
# Runs of a transition system

A run is a list of events from a start state, each allowed by a condition on
the events so far, the state and the event. An invariant may speak of the
events too, so that what is true "since", "before" or "how often" can be
carried along the run.
-/

namespace Runs

variable {σ ε : Type}

/-- The runs from `s₀` whose steps all meet `C`, with the state each leads to. -/
inductive Run (step : σ → ε → σ → Prop) (C : List ε → σ → ε → Prop) (s₀ : σ) : List ε → σ → Prop
  | nil : Run step C s₀ [] s₀
  | snoc {t s e s'} : Run step C s₀ t s → C t s e → step s e s' → Run step C s₀ (t ++ [e]) s'

variable {step : σ → ε → σ → Prop} {C : List ε → σ → ε → Prop} {s₀ : σ}

theorem Run.invariant (I : List ε → σ → Prop) (h0 : I [] s₀)
    (hs : ∀ t s e s', Run step C s₀ t s → I t s → C t s e → step s e s' → I (t ++ [e]) s')
    {t : List ε} {s : σ} (h : Run step C s₀ t s) : I t s := by
  induction h with
  | nil => exact h0
  | snoc hr hc hst ih => exact hs _ _ _ _ hr ih hc hst

theorem Run.mono {C' : List ε → σ → ε → Prop} (hC : ∀ t s e, C t s e → C' t s e) {t : List ε} {s : σ}
    (h : Run step C s₀ t s) : Run step C' s₀ t s := by
  induction h with
  | nil => exact .nil
  | snoc _ hc hst ih => exact .snoc ih (hC _ _ _ hc) hst

theorem Run.event {t : List ε} {s : σ} (h : Run step C s₀ t s) :
    ∀ t₁ e t₂, t = t₁ ++ e :: t₂ → ∃ s₁ s₂, Run step C s₀ t₁ s₁ ∧ C t₁ s₁ e ∧ step s₁ e s₂ := by
  induction h with
  | nil => intro t₁ e t₂ he; simp at he
  | snoc hr hc hst ih =>
    intro t₁ e t₂ he
    rcases List.eq_nil_or_concat t₂ with rfl | ⟨t₂', e', rfl⟩
    · obtain ⟨rfl, hee⟩ := List.append_inj' he rfl
      cases hee
      exact ⟨_, _, hr, hc, hst⟩
    · rw [List.concat_eq_append, ← List.cons_append, ← List.append_assoc] at he
      obtain ⟨he, -⟩ := List.append_inj' he rfl
      exact ih t₁ e t₂' he

/-- A run whose steps all lower a measure is no longer than what it starts with. -/
theorem Run.length_le (μ : σ → Nat) (hs : ∀ t s e s', C t s e → step s e s' → μ s' < μ s) {t : List ε} {s : σ}
    (h : Run step C s₀ t s) : t.length + μ s ≤ μ s₀ := by
  induction h with
  | nil => simp
  | snoc _ hc hst ih =>
    have := hs _ _ _ _ hc hst
    rw [List.length_append, List.length_singleton]
    omega

theorem Run.append {t : List ε} {s : σ} (h : Run step C s₀ t s) {t' : List ε} {s' : σ}
    (h' : Run step (fun u => C (t ++ u)) s t' s') : Run step C s₀ (t ++ t') s' := by
  induction h' with
  | nil => rwa [List.append_nil]
  | snoc _ hc hst ih => rw [← List.append_assoc]; exact .snoc ih hc hst

/-- A property of the last state that each step keeps exactly when it meets `M` holds after exactly the runs whose
steps all meet `M`. -/
theorem Run.iff_forall {M : List ε → σ → ε → Prop} (P : σ → Prop) (h0 : P s₀)
    (hs : ∀ t s e s', Run step C s₀ t s → C t s e → step s e s' → (P s' ↔ P s ∧ M t s e)) {t : List ε} {s : σ}
    (h : Run step C s₀ t s) : P s ↔ Run step (fun t s e => C t s e ∧ M t s e) s₀ t s := by
  constructor
  · intro hp
    induction h with
    | nil => exact .nil
    | snoc hr hc hst ih =>
      obtain ⟨hp, hm⟩ := (hs _ _ _ _ hr hc hst).mp hp
      exact .snoc (ih hp) ⟨hc, hm⟩ hst
  · intro hm
    clear h
    induction hm with
    | nil => exact h0
    | snoc hr hc hst ih => exact (hs _ _ _ _ (hr.mono fun _ _ _ h => h.1) hc.1 hst).mpr ⟨ih, hc.2⟩

theorem Run.state_unique (hdet : ∀ s e a b, step s e a → step s e b → a = b) {C C' : List ε → σ → ε → Prop} {t : List ε}
    {s s' : σ} (h : Run step C s₀ t s) (h' : Run step C' s₀ t s') : s = s' := by
  induction h generalizing s' with
  | nil =>
    generalize ht : ([] : List ε) = t at h'
    cases h' with
    | nil => rfl
    | snoc => simp at ht
  | @snoc t s e s₁ _ _ hst ih =>
    generalize ht : t ++ [e] = u at h'
    cases h' with
    | nil => simp at ht
    | snoc h' _ hst' =>
      obtain ⟨rfl, he⟩ := List.append_inj' ht rfl
      cases he
      exact hdet _ _ _ _ (ih h' ▸ hst) hst'

theorem Run.of_prefix {t t₁ : List ε} {s : σ} (h : Run step C s₀ t s) (ht : t₁ <+: t) : ∃ s₁, Run step C s₀ t₁ s₁ := by
  obtain ⟨t₂, rfl⟩ := ht
  cases t₂ with
  | nil => exact ⟨s, by simpa using h⟩
  | cons e t₂ =>
    obtain ⟨s₁, _, h₁, -⟩ := h.event t₁ e t₂ rfl
    exact ⟨s₁, h₁⟩

/-- A property that each step from a state that has it keeps exactly when it meets `M` holds in every state of exactly
the runs whose steps all meet `M`. -/
theorem Run.always_iff (hdet : ∀ s e a b, step s e a → step s e b → a = b) {M : List ε → σ → ε → Prop} (P : σ → Prop)
    (h0 : P s₀)
    (hs : ∀ t s e s', Run step (fun t s e => C t s e ∧ M t s e) s₀ t s → P s → C t s e → step s e s' → (P s' ↔ M t s e))
    {t : List ε} {s : σ} (h : Run step C s₀ t s) :
    (∀ t₁ s₁, t₁ <+: t → Run step C s₀ t₁ s₁ → P s₁) ↔ Run step (fun t s e => C t s e ∧ M t s e) s₀ t s := by
  constructor
  · intro hp
    induction h with
    | nil => exact .nil
    | snoc hr hc hst ih =>
      have hp₁ := hp _ _ (List.prefix_append _ _) hr
      have hp₂ := hp _ _ List.prefix_rfl (hr.snoc hc hst)
      have hm := ih fun t₁ s₁ ht => hp t₁ s₁ (ht.trans (List.prefix_append _ _))
      exact hm.snoc ⟨hc, (hs _ _ _ _ hm hp₁ hc hst).mp hp₂⟩ hst
  · intro hm t₁ s₁ ht h₁
    obtain ⟨s₂, h₂⟩ := hm.of_prefix ht
    rw [h₁.state_unique hdet h₂]
    refine h₂.invariant (fun _ s => P s) h0 fun _ _ _ _ hr hp hc hst => ?_
    exact (hs _ _ _ _ hr hp hc.1 hst).mpr hc.2

/-- Where every event has one outcome: if `Q`, from a state with `P`, says the same as `M` and leads to such a state,
then it holds of all events of exactly the runs of which `M` does. -/
theorem always_foldl_iff {step : σ → ε → σ} {P : σ → Prop} {Q M : σ → ε → Prop} {s₀ : σ} (h0 : P s₀)
    (hs : ∀ s e, P s → (Q s e ↔ M s e)) (hp : ∀ s e, P s → Q s e → P (step s e)) (t : List ε) :
    (∀ t₁ e, t₁ ++ [e] <+: t → Q (t₁.foldl step s₀) e) ↔ ∀ t₁ e, t₁ ++ [e] <+: t → M (t₁.foldl step s₀) e := by
  have before : ∀ (t₁ : List ε) (R : σ → ε → Prop), (∀ s e, P s → R s e → P (step s e)) →
      (∀ t₂ e, t₂ ++ [e] <+: t₁ → R (t₂.foldl step s₀) e) → P (t₁.foldl step s₀) := by
    intro t₁ R hR hall
    induction t₁ using List.reverseRecOn with
    | nil => exact h0
    | append_singleton t₁ e ih =>
      rw [List.foldl_append]
      exact hR _ e (ih fun t₂ e' h => hall t₂ e' (h.trans (List.prefix_append _ _))) (hall t₁ e List.prefix_rfl)
  have earlier : ∀ {R : σ → ε → Prop} {t₁ : List ε} {e : ε}, t₁ ++ [e] <+: t →
      (∀ t₂ e, t₂ ++ [e] <+: t → R (t₂.foldl step s₀) e) → ∀ t₂ e, t₂ ++ [e] <+: t₁ → R (t₂.foldl step s₀) e :=
    fun h hall t₂ e ht => hall t₂ e (ht.trans ((List.prefix_append _ _).trans h))
  constructor
  · intro hq t₁ e h
    exact (hs _ e (before t₁ Q hp (earlier h hq))).mp (hq t₁ e h)
  · intro hm t₁ e h
    refine (hs _ e (before t₁ M (fun s e h hM => hp s e h ((hs s e h).mpr hM)) (earlier h hm))).mpr (hm t₁ e h)

/-- Where an event may have no outcome: if from a state with `I` each allowed event leads to such a state, and each other
one to what is not good, all events of exactly the runs whose events are all allowed lead to what is good. -/
theorem good_foldl_iff {step : σ → ε → Option σ} {I : σ → Prop} {G : Option σ → Prop} {M : σ → ε → Prop} {s₀ : σ}
    (h0 : I s₀) (hG : ∀ s, I s → G (some s))
    (hs : ∀ s e, I s → (M s e ∧ ∃ t, step s e = some t ∧ I t) ∨ ¬ M s e ∧ ¬ G (step s e)) (t : List ε) :
    (∀ t₁ e, t₁ ++ [e] <+: t → G ((t₁ ++ [e]).foldl (fun s e => s.bind fun s => step s e) (some s₀))) ↔
      ∀ t₁ e, t₁ ++ [e] <+: t →
        ∀ s, t₁.foldl (fun s e => s.bind fun s => step s e) (some s₀) = some s → M s e := by
  simp only [List.foldl_append, List.foldl_cons, List.foldl_nil]
  apply always_foldl_iff (P := fun s => ∃ t, s = some t ∧ I t) (Q := fun s e => G (s.bind fun s => step s e))
    (M := fun s e => ∀ t, s = some t → M t e)
  · exact ⟨s₀, rfl, h0⟩
  · intro s e ⟨t, hst, ht⟩
    rw [hst]
    rcases hs t e ht with ⟨hm, u, hu, hi⟩ | ⟨hm, hg⟩
    · refine ⟨fun _ u hu => ?_, fun _ => ?_⟩
      · rwa [← Option.some.inj hu]
      · rw [Option.bind_some, hu]
        exact hG u hi
    · exact ⟨fun hgood => absurd hgood hg, fun hall => absurd (hall t rfl) hm⟩
  · intro s e ⟨t, hst, ht⟩ hgood
    rw [hst] at hgood ⊢
    rcases hs t e ht with ⟨-, hok⟩ | ⟨-, hg⟩
    · exact hok
    · exact absurd hgood hg

/-- The state after a list of events, when there is at most one for each. -/
def replay (step : σ → ε → Option σ) (s : σ) : List ε → Option σ
  | [] => some s
  | e :: t => (step s e).bind fun s' => replay step s' t

theorem Run.of_replay_meets {step : σ → ε → Option σ} {M : σ → ε → Prop} [∀ s e, Decidable (M s e)] {t : List ε}
    {s s' : σ} (h : replay (fun s e => if M s e then step s e else none) s t = some s') :
    Run (fun s e s' => step s e = some s') (fun _ s e => M s e) s t s' := by
  induction t generalizing s with
  | nil =>
    cases h
    exact .nil
  | cons e t ih =>
    obtain ⟨s₁, hst, h⟩ := Option.bind_eq_some_iff.mp h
    obtain ⟨hm, hst⟩ := Option.ite_none_right_eq_some.mp hst
    exact (Run.snoc .nil hm hst).append (t := [e]) (ih h)

theorem Run.of_replay {step : σ → ε → Option σ} {t : List ε} {s s' : σ} (h : replay step s t = some s') :
    Run (fun s e s' => step s e = some s') (fun _ _ _ => True) s t s' := by
  apply Run.of_replay_meets (M := fun _ _ => True)
  simpa using h

end Runs
