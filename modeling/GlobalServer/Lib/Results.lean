import Mathlib.Data.List.Forall2

/-!
# Programs that stop at an error

What is known of the parts of a program in `Except` when the whole of it
succeeds.
-/

namespace List.Forall₂

variable {α β γ : Type} {R : α → β → Prop} {l : List α} {l' : List β}

theorem exists_left (h : Forall₂ R l l') : ∀ y ∈ l', ∃ x ∈ l, R x y := by
  induction h with
  | nil => simp
  | cons hr _ ih =>
    intro y hy
    rcases List.mem_cons.mp hy with rfl | hy
    · exact ⟨_, by simp, hr⟩
    · obtain ⟨x, hx, hxy⟩ := ih y hy
      exact ⟨x, List.mem_cons_of_mem _ hx, hxy⟩

theorem exists_right (h : Forall₂ R l l') : ∀ x ∈ l, ∃ y ∈ l', R x y := h.flip.exists_left

theorem map_eq {k : β → γ} {g : α → γ} (h : Forall₂ R l l') (hk : ∀ x y, R x y → k y = g x) : l'.map k = l.map g := by
  induction h with
  | nil => rfl
  | cons hr _ ih => rw [List.map_cons, List.map_cons, hk _ _ hr, ih]

theorem and_iff {S : α → β → Prop} : ∀ {l : List α} {l' : List β},
    Forall₂ (fun a b => R a b ∧ S a b) l l' ↔ Forall₂ R l l' ∧ Forall₂ S l l'
  | [], [] => by simp
  | [], _ :: _ => by simp
  | _ :: _, [] => by simp
  | a :: l, b :: l' => by rw [forall₂_cons, forall₂_cons, forall₂_cons, and_iff, and_and_and_comm]

theorem concat_left_iff {a : α} : Forall₂ R (l ++ [a]) l' ↔ ∃ l₁ b, l' = l₁ ++ [b] ∧ Forall₂ R l l₁ ∧ R a b := by
  constructor
  · intro h
    induction l generalizing l' with
    | nil =>
      obtain ⟨b, l₁, hb, hnil, rfl⟩ := forall₂_cons_left_iff.mp h
      obtain rfl := forall₂_nil_left_iff.mp hnil
      exact ⟨[], b, rfl, .nil, hb⟩
    | cons c l ih =>
      obtain ⟨d, l₁, hd, h₁, rfl⟩ := forall₂_cons_left_iff.mp h
      obtain ⟨l₂, b, rfl, h₂, hb⟩ := ih h₁
      exact ⟨d :: l₂, b, rfl, .cons hd h₂, hb⟩
  · rintro ⟨l₁, b, rfl, h, hb⟩
    exact rel_append h (.cons hb .nil)

theorem concat_iff {a : α} {b : β} : Forall₂ R (l ++ [a]) (l' ++ [b]) ↔ Forall₂ R l l' ∧ R a b := by
  rw [concat_left_iff]
  constructor
  · rintro ⟨l₁, b', he, h, hb⟩
    obtain ⟨rfl, hbb⟩ := List.append_inj' he rfl
    obtain rfl := List.singleton_inj.mp hbb
    exact ⟨h, hb⟩
  · rintro ⟨h, hb⟩
    exact ⟨l', b, rfl, h, hb⟩

end List.Forall₂

namespace Except

variable {ε α β γ : Type}

theorem ok_bind (a : α) (f : α → Except ε β) : (Except.ok a >>= f) = f a := rfl

theorem guard_eq_ok {c : Prop} [Decidable c] {e : ε} {x : Except ε α} {a : α} :
    (if c then .error e else x) = .ok a ↔ ¬ c ∧ x = .ok a := by
  by_cases h : c
  · simp [h]
  · simp [h]

theorem bind_eq_ok {x : Except ε α} {f : α → Except ε β} {b : β} :
    (x >>= f) = .ok b ↔ ∃ a, x = .ok a ∧ f a = .ok b := by
  constructor
  · intro h
    cases x with
    | error e => cases h
    | ok a => exact ⟨a, rfl, h⟩
  · rintro ⟨a, rfl, h⟩
    exact h

theorem mapM_ok {f : α → Except ε β} : ∀ {l : List α} {l' : List β}, l.mapM f = .ok l' →
    List.Forall₂ (fun x y => f x = .ok y) l l'
  | [], l', h => by
    cases h
    exact .nil
  | x :: l, l', h => by
    rw [List.mapM_cons] at h
    obtain ⟨y, hy, h₁⟩ := bind_eq_ok.mp h
    obtain ⟨ys, hys, h₂⟩ := bind_eq_ok.mp h₁
    cases h₂
    exact .cons hy (mapM_ok hys)

theorem mapM_map {f : α → Except ε β} {k : β → γ} {g : α → γ} {l : List α} {l' : List β} (h : l.mapM f = .ok l')
    (hk : ∀ x y, f x = .ok y → k y = g x) : l'.map k = l.map g := (mapM_ok h).map_eq hk

/-- Arguments that stand for lists, and the results for lists that are related to them. -/
theorem mapM_flatten {R : γ → β → Prop} {f : α → Except ε (List β)} {g : α → List γ} {l : List α} {l' : List (List β)}
    (h : l.mapM f = .ok l') (hR : ∀ x ∈ l, ∀ ys, f x = .ok ys → List.Forall₂ R (g x) ys) :
    List.Forall₂ R (l.flatMap g) l'.flatten := by
  have hf := mapM_ok h
  clear h
  induction hf with
  | nil => exact .nil
  | @cons x ys l l' hy _ ih =>
    rw [List.flatMap_cons, List.flatten_cons]
    exact List.rel_append (hR x List.mem_cons_self ys hy) (ih fun x' hx' => hR x' (List.mem_cons_of_mem x hx'))

theorem foldlM_inv {f : β → α → Except ε β} {P : β → Prop} (hf : ∀ b a b', P b → f b a = .ok b' → P b') :
    ∀ {l : List α} {b b' : β}, P b → l.foldlM f b = .ok b' → P b'
  | [], b, b', hb, h => by
    cases h
    exact hb
  | a :: l, b, b', hb, h => by
    rw [List.foldlM_cons] at h
    obtain ⟨b₁, h₁, h₂⟩ := bind_eq_ok.mp h
    exact foldlM_inv hf (hf b a b₁ hb h₁) h₂

end Except

namespace Option

variable {α β : Type}

theorem mapM_getElem? {f : α → Option β} : ∀ {l : List α} {l' : List β}, l.mapM f = some l' →
    ∀ (i : Nat) (x : α), l[i]? = some x → ∃ y, l'[i]? = some y ∧ f x = some y
  | [], _, _, i, x, hx => by simp at hx
  | a :: l, l', h, i, x, hx => by
    rw [List.mapM_cons] at h
    obtain ⟨y, hy, h⟩ := Option.bind_eq_some_iff.mp h
    obtain ⟨ys, hys, h⟩ := Option.bind_eq_some_iff.mp h
    cases h
    cases i with
    | zero =>
      cases hx
      exact ⟨y, rfl, hy⟩
    | succ i => exact mapM_getElem? hys i x hx

end Option
