import Mathlib.Data.List.Forall2

/-!
# `RegisterMachine.Proofs.Except` — answers that may be faults

Two ways in which answers are put together: one behind the other (`>>=`), and
a list of them into one (`mapM id`).  Both give the first fault that there is.

Two answers are related if both are faults or neither is, and what they hold is
related (`Rel`).  Putting together keeps this.
-/

namespace RegisterMachine.Except

variable {ε α β : Type}

theorem bind_eq_ok_iff {x : Except ε α} {f : α → Except ε β} {b : β} :
    x >>= f = .ok b ↔ ∃ a, x = .ok a ∧ f a = .ok b := by
  cases x with
  | error e =>
    constructor
    · intro h; cases h
    · rintro ⟨_, h, _⟩; cases h
  | ok a =>
    constructor
    · intro h; exact ⟨a, rfl, h⟩
    · rintro ⟨_, h, hf⟩; cases h; exact hf

theorem bind_eq_error_iff {x : Except ε α} {f : α → Except ε β} {e : ε} :
    x >>= f = .error e ↔ x = .error e ∨ ∃ a, x = .ok a ∧ f a = .error e := by
  cases x with
  | error d =>
    constructor
    · intro h; cases h; exact .inl rfl
    · rintro (h | ⟨_, h, _⟩)
      · cases h; rfl
      · cases h
  | ok a =>
    constructor
    · intro h; exact .inr ⟨a, rfl, h⟩
    · rintro (h | ⟨_, h, hf⟩)
      · cases h
      · cases h; exact hf

/-- A list of answers is an answer if each of them is one -/
theorem mapM_id_eq_ok_iff {xs : List (Except ε α)} {as : List α} :
    xs.mapM id = .ok as ↔ xs = as.map .ok := by
  induction xs generalizing as with
  | nil => cases as <;> simp [pure, Except.pure]
  | cons x xs ih =>
    rw [List.mapM_cons, bind_eq_ok_iff]
    constructor
    · rintro ⟨a, hx, h⟩
      obtain ⟨bs, hxs, h⟩ := bind_eq_ok_iff.1 h
      cases h
      rw [show x = .ok a from hx, ih.1 hxs, List.map_cons]
    · intro h
      cases as with
      | nil => cases h
      | cons a as =>
        cases h
        exact ⟨a, rfl, bind_eq_ok_iff.2 ⟨as, ih.2 rfl, rfl⟩⟩

/-- A list of answers is a fault if it has one, and then it is the first -/
theorem mapM_id_eq_error_iff {xs : List (Except ε α)} {e : ε} :
    xs.mapM id = .error e ↔ ∃ (as : List α) (ys : _), xs = as.map .ok ++ .error e :: ys := by
  induction xs with
  | nil => simp [pure, Except.pure]
  | cons x xs ih =>
    rw [List.mapM_cons, bind_eq_error_iff]
    constructor
    · rintro (hx | ⟨a, hx, h⟩)
      · exact ⟨[], xs, by rw [show x = .error e from hx]; rfl⟩
      · rcases bind_eq_error_iff.1 h with h | ⟨_, _, h⟩
        · obtain ⟨as, ys, rfl⟩ := ih.1 h
          exact ⟨a :: as, ys, by rw [show x = .ok a from hx]; rfl⟩
        · cases h
    · rintro ⟨as, ys, h⟩
      cases as with
      | nil =>
        obtain ⟨rfl, _⟩ := List.cons.inj h
        exact .inl rfl
      | cons a as =>
        obtain ⟨rfl, rfl⟩ := List.cons.inj h
        exact .inr ⟨a, rfl, bind_eq_error_iff.2 (.inl (ih.2 ⟨as, ys, rfl⟩))⟩

/-- Answers to a list in its order are the answers to its elements, if none of them is a fault -/
theorem mapM_eq_ok_iff {f : α → Except ε β} {xs : List α} {ys : List β} :
    xs.mapM f = .ok ys ↔ List.Forall₂ (fun x y => f x = .ok y) xs ys := by
  induction xs generalizing ys with
  | nil => cases ys <;> simp [pure, Except.pure]
  | cons x xs ih =>
    rw [List.mapM_cons, bind_eq_ok_iff]
    constructor
    · rintro ⟨y, hx, h⟩
      obtain ⟨ys, hxs, h⟩ := bind_eq_ok_iff.1 h
      cases h
      exact .cons hx (ih.1 hxs)
    · intro h
      cases h with
      | cons hx hxs => exact ⟨_, hx, bind_eq_ok_iff.2 ⟨_, ih.2 hxs, rfl⟩⟩

/-- Answers to a list in its order fail at the first element that has a fault -/
theorem mapM_eq_error_iff {f : α → Except ε β} {xs : List α} {e : ε} :
    xs.mapM f = .error e ↔ ∃ before x after, xs = before ++ x :: after ∧
      (∀ y ∈ before, ∃ b, f y = .ok b) ∧ f x = .error e := by
  induction xs with
  | nil => simp [pure, Except.pure]
  | cons a xs ih =>
    rw [List.mapM_cons, bind_eq_error_iff]
    constructor
    · rintro (ha | ⟨b, ha, h⟩)
      · exact ⟨[], a, xs, rfl, nofun, ha⟩
      · rcases bind_eq_error_iff.1 h with h | ⟨_, _, h⟩
        · obtain ⟨before, x, after, rfl, hbefore, hx⟩ := ih.1 h
          exact ⟨a :: before, x, after, rfl, List.forall_mem_cons.2 ⟨⟨b, ha⟩, hbefore⟩, hx⟩
        · cases h
    · rintro ⟨before, x, after, hxs, hbefore, hx⟩
      cases before with
      | nil =>
        cases hxs
        exact .inl hx
      | cons y before =>
        cases hxs
        obtain ⟨⟨b, hb⟩, hbefore⟩ := List.forall_mem_cons.1 hbefore
        exact .inr ⟨b, hb, bind_eq_error_iff.2 (.inl (ih.2 ⟨before, x, after, rfl, hbefore, hx⟩))⟩

/-- A fault of one element is a fault of the whole, if perhaps not the same -/
theorem mapM_ne_ok_of_mem {f : α → Except ε β} {xs : List α} {x : α} (hx : x ∈ xs) {e : ε}
    (he : f x = .error e) : ∃ e', xs.mapM f = .error e' := by
  induction xs with
  | nil => cases hx
  | cons a xs ih =>
    rw [List.mapM_cons]
    cases ha : f a with
    | error d => exact ⟨d, rfl⟩
    | ok b =>
      rcases List.mem_cons.1 hx with rfl | hx
      · rw [he] at ha
        cases ha
      · obtain ⟨e', he'⟩ := ih hx
        exact ⟨e', bind_eq_error_iff.2 (.inr ⟨b, rfl, bind_eq_error_iff.2 (.inl he')⟩)⟩

/-! ## Related answers -/

variable {ε' α' β' : Type} {E : ε → ε' → Prop} {A : α → α' → Prop} {B : β → β' → Prop}

/-- Both are faults, or neither is, and what they hold is related -/
inductive Rel (E : ε → ε' → Prop) (A : α → α' → Prop) : Except ε α → Except ε' α' → Prop
  | ok {a : α} {a' : α'} : A a a' → Rel E A (.ok a) (.ok a')
  | error {e : ε} {e' : ε'} : E e e' → Rel E A (.error e) (.error e')

theorem Rel.bind {x : Except ε α} {x' : Except ε' α'} {f : α → Except ε β} {f' : α' → Except ε' β'}
    (hx : Rel E A x x') (hf : ∀ a a', A a a' → Rel E B (f a) (f' a')) :
    Rel E B (x >>= f) (x' >>= f') := by
  cases hx with
  | ok ha => exact hf _ _ ha
  | error he => exact .error he

theorem Rel.map {x : Except ε α} {x' : Except ε' α'} {f : α → β} {f' : α' → β'} (hx : Rel E A x x')
    (hf : ∀ a a', A a a' → B (f a) (f' a')) : Rel E B (x.map f) (x'.map f') := by
  cases hx with
  | ok ha => exact .ok (hf _ _ ha)
  | error he => exact .error he

theorem Rel.mono {F : ε → ε' → Prop} {C : α → α' → Prop} {x : Except ε α} {x' : Except ε' α'}
    (hx : Rel E A x x') (hE : ∀ e e', E e e' → F e e') (hA : ∀ a a', A a a' → C a a') :
    Rel F C x x' := by
  cases hx with
  | ok ha => exact .ok (hA _ _ ha)
  | error he => exact .error (hE _ _ he)

/-- Lists of related answers are related as answers -/
theorem rel_mapM_id {xs : List (Except ε α)} {xs' : List (Except ε' α')}
    (h : List.Forall₂ (Rel E A) xs xs') :
    Rel E (List.Forall₂ A) (xs.mapM id) (xs'.mapM id) := by
  induction h with
  | nil => exact .ok .nil
  | cons hx _ ih =>
    rw [List.mapM_cons, List.mapM_cons]
    refine Rel.bind hx fun a a' ha => ?_
    exact ih.bind fun as as' has => .ok (.cons ha has)

end RegisterMachine.Except
