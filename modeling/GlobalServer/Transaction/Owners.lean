import GlobalServer.Transaction.Ids

/-!
# Who owns a transaction object

An object a bucket has made is either in that bucket's free list or in the
map of the active ones. `ProcessFrame` called from a handler breaks this: it
takes an object from a bucket for which no coroutine is started.
-/

namespace GlobalServer

namespace App

/-- Every object is in one place: its own bucket's free list, where it is once, or the map. -/
structure Owned (a : App) : Prop where
  place : ∀ p < a.transTop, (∃ x, a.Free x p) ∧ (¬ ∃ i, a.getTransaction i = some p) ∨
    (¬ ∃ x, a.Free x p) ∧ ∃ i, a.getTransaction i = some p
  own : ∀ x p, a.Free x p → p < a.transTop ∧ (a.trans p).type = x
  once : ∀ x b, a.transBucketMap x = some b → b.transVec.Nodup

/-- No handler makes a transaction, and a transaction gets an id that is not in use. -/
structure StartsOk (a : App) (e : Event) : Prop where
  nested : ∀ q fd frame p, e = .co q (.processFrame fd frame (some p)) → frame.dstTransId ≠ 0
  id : ∀ fd frame p, e = .dispatch fd frame (some p) → frame.dstTransId = 0 →
    a.getTransaction a.transIdGenerator = none

/-- No object is lost. -/
def Kept (a : App) : Prop := ∀ p < a.transTop, (∃ x, a.Free x p) ∨ a.Running p

theorem Kept.owned {a : App} (hk : a.Kept) (hm : a.Mapped) (h : Sound a) : a.Owned where
  place p hp := by
    rcases hk p hp with ⟨x, hx⟩ | hr
    · refine Or.inl ⟨⟨x, hx⟩, ?_⟩
      rintro ⟨i, hi⟩
      obtain ⟨-, id, pc, ht⟩ := h.active i p hi
      exact (h.free x p hx).2.2 id _ ht rfl
    · refine Or.inr ⟨?_, _, hm p hr⟩
      rintro ⟨x, hx⟩
      obtain ⟨id, pc, ht⟩ := hr
      exact (h.free x p hx).2.2 id _ ht rfl
  own x p hx := ⟨(h.free x p hx).1, (h.free x p hx).2.1⟩
  once := h.nodup

theorem kept_life {a a' : App} {e : Event} (h : Sound a) (hk : a.Kept)
    (hn : ∀ q fd frame p, e = .co q (.processFrame fd frame (some p)) → frame.dstTransId ≠ 0) (hl : Life a e a') :
    a'.Kept := by
  intro q hq
  cases hl with
  | keep ok waits trans handler active buckets top generator =>
    rw [top] at hq
    simp only [Free, buckets, running_keep handler]
    exact hk q hq
  | @start p id cmd c fd frame he hd hc born ok cur new task others trans active buckets top generator =>
    have hfree : ∀ x, a'.Free x q ↔ c.Free x q := by intro x; simp only [Free, buckets]
    simp only [hfree, born.free, running_start new task]
    by_cases hqp : q = p
    · exact Or.inr (Or.inr hqp)
    · rw [top, born.objects] at hq
      rcases hk q (hq.resolve_right hqp) with ⟨x, hx⟩ | hr
      · exact Or.inl ⟨x, hx, hqp⟩
      · exact Or.inr (Or.inl hr)
  | @lost p q' cmd c fd frame he hd hc born schedule others type timer active buckets top generator =>
    exact absurd hd (hn _ _ _ _ he)
  | @exit p id act he cur run hs trans active free nodup buckets top generator =>
    rw [top] at hq
    simp only [free, running_exit h run hs]
    by_cases hqp : q = p
    · exact Or.inl ⟨_, Or.inr ⟨rfl, hqp⟩⟩
    · rcases hk q hq with ⟨x, hx⟩ | hr
      · exact Or.inl ⟨x, Or.inl hx⟩
      · exact Or.inr ⟨hr, hqp⟩

/-- As long as no handler makes a transaction and no id is given twice, every object is in its bucket's free list or
active. -/
theorem owned_run {c : Config} {t : List Event} {a : App} (h : Run (fun _ => StartsOk) c t a) : a.Owned := by
  have hk : a.Kept := by
    refine run_invariant (fun _ a => a.Kept) ?_ ?_ h
    · intro p hp
      simp [init] at hp
    · intro t a e a' hs hk hc he
      exact kept_life hs hk hc.nested (effect_life hs he)
  exact hk.owned (mapped_run h fun _ _ _ hc => hc.id) (run_sound h)

/-- The object of the second transaction goes back to its bucket, and is used for the third. -/
theorem owned_run_again : ∃ a, Run (fun _ => StartsOk) smallConfig
    (twoStarted ++ [secondEnds, .dispatched, .dispatch 3 { cmd := 7 } (some 1)]) a ∧ a.transTop = 2 ∧ a.Owned := by
  have hok : ∀ {a : App} {e : Event}, startsFresh a e = true → StartsOk a e := by
    refine fun {a e} h => ⟨?_, fun fd frame p he hd => (startsFresh_ok h fd frame p he hd).2⟩
    rintro q fd frame p rfl
    cases h
  have h : (replayIf (fun _ => startsFresh) [] (init smallConfig)
      (twoStarted ++ [secondEnds, .dispatched, .dispatch 3 { cmd := 7 } (some 1)])).map App.transTop = some 2 := by
    decide +kernel
  obtain ⟨a, ha, htop⟩ := Option.map_eq_some_iff.mp h
  have hrun : Run (fun _ => StartsOk) smallConfig
      ([] ++ (twoStarted ++ [secondEnds, .dispatched, .dispatch 3 { cmd := 7 } (some 1)])) a :=
    replayIf_run (fun _ _ _ _ => hok) .nil ha
  exact ⟨a, hrun, htop, owned_run hrun⟩

/-- A handler passes on a frame for a new transaction: its object is in no free list and not active. -/
theorem nested_start_lost : ∃ t a, Run (fun _ _ _ => True) smallConfig t a ∧ ¬ a.Owned ∧
    1 < a.transTop ∧ (¬ ∃ x, a.Free x 1) ∧ ¬ ∃ i, a.getTransaction i = some 1 := by
  have h : ((init smallConfig).replay [.dispatch 3 { cmd := 7 } (some 0),
    .co 0 (.parseMsg (.frame 0 { cmd := 7 }) true),
      .co 0 (.processFrame 3 { cmd := 7 } (some 1))]).map (fun a => (a.transTop, (a.trans 1).type,
        (a.transBucketMap 7).map TransactionBucket.transVec, a.activeTransMap.entries.map Sigma.snd)) =
      some (2, 7, some [], [0]) := by decide
  obtain ⟨a, hr, h⟩ := Option.map_eq_some_iff.mp h
  simp only [Prod.mk.injEq] at h
  obtain ⟨htop, htype, hvec, hent⟩ := h
  have hrun : Run (fun _ _ _ => True) smallConfig _ a := replay_run (fun _ _ _ _ => trivial) .nil hr
  have hlt : 1 < a.transTop := by rw [htop]; decide
  have hfree : ¬ ∃ x, a.Free x 1 := by
    rintro ⟨x, hx⟩
    obtain rfl : x = 7 := ((run_sound hrun).free x 1 hx).2.1.symm.trans htype
    obtain ⟨b, hb, hm⟩ := hx
    obtain ⟨b', hb', hv⟩ := Option.map_eq_some_iff.mp hvec
    rw [hb] at hb'
    cases hb'
    simp [hv] at hm
  have hactive : ¬ ∃ i, a.getTransaction i = some 1 := by
    rintro ⟨i, hi⟩
    have hm : (⟨i, 1⟩ : (_ : UInt32) × Nat) ∈ a.activeTransMap.entries := AList.mem_lookup_iff.mp hi
    have : 1 ∈ a.activeTransMap.entries.map Sigma.snd := List.mem_map.mpr ⟨_, hm, rfl⟩
    simp [hent] at this
  refine ⟨_, a, hrun, fun ho => ?_, hlt, hfree, hactive⟩
  rcases ho.place 1 hlt with ⟨hf, -⟩ | ⟨-, ha⟩
  · exact hfree hf
  · exact hactive ha

end App

end GlobalServer
