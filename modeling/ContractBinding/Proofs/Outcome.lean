import Mathlib.Data.List.Forall2

/-!
# Computations that may be refused

When a computation in steps succeeds, each of its steps has succeeded; a list of computations
succeeds entry by entry, and the results stand in the order of the entries.
-/

namespace ContractBinding.Outcome

universe u v

variable {ε : Type u} {α β : Type v}

/-- A sequence succeeds exactly when both of its steps do. -/
theorem bind_eq_ok_iff {x : Except ε α} {f : α → Except ε β} {b : β} :
    (x >>= f) = .ok b ↔ ∃ a, x = .ok a ∧ f a = .ok b := by
  cases x with
  | error e => simp [bind, Except.bind]
  | ok a => simp [bind, Except.bind]

/-- A step that succeeds goes on with its result. -/
theorem ok_bind (a : α) (f : α → Except ε β) : (Except.ok a >>= f) = f a := rfl

/-- A check goes through to what stands after it exactly when it passes. -/
theorem check_bind_eq_ok_iff {x : Except ε PUnit} {y : Except ε β} {b : β} :
    (x >>= fun _ => y) = .ok b ↔ x = .ok PUnit.unit ∧ y = .ok b := by
  rw [bind_eq_ok_iff]
  exact ⟨fun ⟨_, hx, hy⟩ => ⟨hx, hy⟩, fun ⟨hx, hy⟩ => ⟨PUnit.unit, hx, hy⟩⟩

/-- Returning a value is no step. -/
theorem pure_eq_ok_iff {a b : α} : (pure a : Except ε α) = .ok b ↔ a = b := by
  simp [pure, Except.pure]

/-- A result is mapped exactly when there is one. -/
theorem map_eq_ok_iff {x : Except ε α} {f : α → β} {b : β} :
    x.map f = .ok b ↔ ∃ a, x = .ok a ∧ f a = b := by
  cases x with
  | error e => simp [Except.map]
  | ok a => simp [Except.map]

/-- A result is given a key exactly when there is one. -/
theorem map_mk_eq_ok_iff {γ : Type v} {x : Except ε α} {key : γ} {e : γ × α} :
    x.map (key, ·) = .ok e ↔ e.1 = key ∧ x = .ok e.2 := by
  rw [map_eq_ok_iff]
  constructor
  · rintro ⟨a, rfl, rfl⟩
    exact ⟨rfl, rfl⟩
  · rintro ⟨rfl, h⟩
    exact ⟨e.2, h, rfl⟩

/-- Saying the refusal in other words refuses nothing more. -/
theorem mapError_eq_ok_iff {ε' : Type u} {x : Except ε α} {f : ε → ε'} {a : α} :
    x.mapError f = .ok a ↔ x = .ok a := by
  cases x with
  | error e => simp [Except.mapError]
  | ok b => simp [Except.mapError]

/-- A computation that gives a value succeeds with it. -/
theorem eq_ok_of_toOption {x : Except ε α} {a : α} (h : x.toOption = some a) : x = .ok a := by
  cases x with
  | error e => simp [Except.toOption] at h
  | ok b => exact congrArg Except.ok (Option.some.inj h)

/-- A list of computations succeeds entry by entry. -/
theorem mapM_eq_ok_iff {f : α → Except ε β} {xs : List α} {ys : List β} :
    xs.mapM f = .ok ys ↔ List.Forall₂ (fun x y => f x = .ok y) xs ys := by
  induction xs generalizing ys with
  | nil => rw [List.mapM_nil, pure_eq_ok_iff, List.forall₂_nil_left_iff, eq_comm]
  | cons x rest ih =>
    simp only [List.mapM_cons, bind_eq_ok_iff, pure_eq_ok_iff, List.forall₂_cons_left_iff, ih]
    constructor
    · rintro ⟨y, hy, ys', hys, rfl⟩
      exact ⟨y, ys', hy, hys, rfl⟩
    · rintro ⟨y, ys', hy, hys, rfl⟩
      exact ⟨y, hy, ys', hys, rfl⟩

/-- A list of computations has results exactly when each of them has one. -/
theorem exists_mapM_eq_ok_iff {f : α → Except ε β} {xs : List α} :
    (∃ ys, xs.mapM f = .ok ys) ↔ ∀ x ∈ xs, ∃ y, f x = .ok y := by
  induction xs with
  | nil => simp [pure_eq_ok_iff]
  | cons x rest ih =>
    simp only [List.mapM_cons, bind_eq_ok_iff, pure_eq_ok_iff, List.forall_mem_cons, ← ih]
    constructor
    · rintro ⟨_, y, hy, ys, hys, -⟩
      exact ⟨⟨y, hy⟩, ys, hys⟩
    · rintro ⟨⟨y, hy⟩, ys, hys⟩
      exact ⟨_, y, hy, ys, hys, rfl⟩

/-- Only the entries of a list matter to its computations. -/
theorem mapM_congr {f k : α → Except ε β} {xs : List α} (h : ∀ x ∈ xs, f x = k x) :
    xs.mapM f = xs.mapM k := by
  induction xs with
  | nil => rfl
  | cons x rest ih =>
    rw [List.forall_mem_cons] at h
    rw [List.mapM_cons, List.mapM_cons, h.1, ih h.2]

/-- A list of computations is refused exactly by the first of them that is. -/
theorem mapM_eq_error_iff {f : α → Except ε β} {xs : List α} {e : ε} :
    xs.mapM f = .error e ↔ ∃ before x after, xs = before ++ x :: after ∧
      (∀ y ∈ before, ∃ b, f y = .ok b) ∧ f x = .error e := by
  induction xs with
  | nil => simp [pure, Except.pure]
  | cons x rest ih =>
    rw [List.mapM_cons]
    cases hx : f x with
    | error other =>
      constructor
      · intro h
        cases h
        exact ⟨[], x, rest, rfl, by simp, hx⟩
      · rintro ⟨before, y, after, hsplit, hbefore, hy⟩
        cases before with
        | nil =>
          cases hsplit
          cases hx.symm.trans hy
          rfl
        | cons z before =>
          cases hsplit
          obtain ⟨b, hb⟩ := hbefore x (by simp)
          simp [hx] at hb
    | ok b =>
      have hrest : (do let bs ← rest.mapM f; pure (b :: bs)) = .error e ↔
          rest.mapM f = .error e := by
        cases rest.mapM f <;> simp [bind, Except.bind, pure, Except.pure]
      refine hrest.trans (ih.trans ?_)
      constructor
      · rintro ⟨before, y, after, rfl, hbefore, hy⟩
        exact ⟨x :: before, y, after, rfl, List.forall_mem_cons.2 ⟨⟨b, hx⟩, hbefore⟩, hy⟩
      · rintro ⟨before, y, after, hsplit, hbefore, hy⟩
        cases before with
        | nil =>
          cases hsplit
          simp [hx] at hy
        | cons z before =>
          cases hsplit
          exact ⟨before, y, after, rfl, (List.forall_mem_cons.1 hbefore).2, hy⟩

/-- A list of checks passes exactly when each of them does. -/
theorem forM_eq_ok_iff {f : α → Except ε PUnit} {xs : List α} :
    xs.forM f = .ok () ↔ ∀ x ∈ xs, f x = .ok () := by
  induction xs with
  | nil => simp [pure_eq_ok_iff]
  | cons x rest ih =>
    rw [List.forM_eq_forM] at ih ⊢
    rw [List.forM_cons, bind_eq_ok_iff, List.forall_mem_cons, ← ih]
    exact ⟨fun ⟨_, hx, hrest⟩ => ⟨hx, hrest⟩, fun ⟨hx, hrest⟩ => ⟨(), hx, hrest⟩⟩

section Pairing

variable {γ δ : Type*} {R : γ → δ → Prop} {xs : List γ} {ys : List δ}

/-- Every entry on the right has its partner, at its own position. -/
theorem getElem?_left (h : List.Forall₂ R xs ys) {i : Nat} {y : δ} (hy : ys[i]? = some y) :
    ∃ x, xs[i]? = some x ∧ R x y := by
  induction h generalizing i with
  | nil => simp at hy
  | cons hxy _ ih =>
    cases i with
    | zero =>
      simp only [List.getElem?_cons_zero, Option.some.injEq] at hy
      subst hy
      exact ⟨_, rfl, hxy⟩
    | succ i => exact ih (by simpa using hy)

/-- Every entry on the left has its partner, at its own position. -/
theorem getElem?_right (h : List.Forall₂ R xs ys) {i : Nat} {x : γ} (hx : xs[i]? = some x) :
    ∃ y, ys[i]? = some y ∧ R x y :=
  getElem?_left (R := fun y x => R x y) h.flip hx

/-- Every entry on the right has a partner. -/
theorem exists_mem_left (h : List.Forall₂ R xs ys) {y : δ} (hy : y ∈ ys) :
    ∃ x ∈ xs, R x y := by
  obtain ⟨i, hi⟩ := List.mem_iff_getElem?.1 hy
  obtain ⟨x, hx, hxy⟩ := getElem?_left h hi
  exact ⟨x, List.mem_of_getElem? hx, hxy⟩

/-- Every entry on the left has a partner. -/
theorem exists_mem_right (h : List.Forall₂ R xs ys) {x : γ} (hx : x ∈ xs) :
    ∃ y ∈ ys, R x y :=
  exists_mem_left (R := fun y x => R x y) h.flip hx

/-- What holds of partners alike holds somewhere on the left exactly when it holds somewhere on the
right. -/
theorem exists_getElem?_iff {P : Nat → γ → Prop} {Q : Nat → δ → Prop}
    (h : List.Forall₂ R xs ys) (hR : ∀ i x y, R x y → (P i x ↔ Q i y)) :
    (∃ (i : Nat) (x : γ), xs[i]? = some x ∧ P i x) ↔
      ∃ (i : Nat) (y : δ), ys[i]? = some y ∧ Q i y := by
  constructor
  · rintro ⟨i, x, hx, hp⟩
    obtain ⟨y, hy, hxy⟩ := getElem?_right h hx
    exact ⟨i, y, hy, (hR i x y hxy).1 hp⟩
  · rintro ⟨i, y, hy, hq⟩
    obtain ⟨x, hx, hxy⟩ := getElem?_left h hy
    exact ⟨i, x, hx, (hR i x y hxy).2 hq⟩

/-- Where every entry could have a partner, there is a list of partners. -/
theorem exists_forall₂ (h : ∀ x ∈ xs, ∃ y, R x y) : ∃ ys, List.Forall₂ R xs ys := by
  induction xs with
  | nil => exact ⟨[], .nil⟩
  | cons x rest ih =>
    rw [List.forall_mem_cons] at h
    obtain ⟨y, hy⟩ := h.1
    obtain ⟨ys, hys⟩ := ih h.2
    exact ⟨y :: ys, .cons hy hys⟩

/-- Every entry of the first of two lists of one length stands in a pair. -/
theorem exists_mem_zip_left (hlength : ys.length = xs.length) {x : γ} (hx : x ∈ xs) :
    ∃ y, (x, y) ∈ xs.zip ys := by
  rw [← List.map_fst_zip (Nat.le_of_eq hlength.symm)] at hx
  obtain ⟨⟨_, y⟩, hm, rfl⟩ := List.mem_map.1 hx
  exact ⟨y, hm⟩

/-- Every entry of the second of two lists of one length stands in a pair. -/
theorem exists_mem_zip_right (hlength : ys.length = xs.length) {y : δ} (hy : y ∈ ys) :
    ∃ x, (x, y) ∈ xs.zip ys := by
  rw [← List.map_snd_zip (Nat.le_of_eq hlength)] at hy
  obtain ⟨⟨x, _⟩, hm, rfl⟩ := List.mem_map.1 hy
  exact ⟨x, hm⟩

/-- What partners have in common, the lists have in common. -/
theorem map_eq_map {η : Type*} {f : γ → η} {k : δ → η} (h : List.Forall₂ R xs ys)
    (hR : ∀ x y, R x y → f x = k y) : xs.map f = ys.map k := by
  induction h with
  | nil => rfl
  | cons hxy _ ih => rw [List.map_cons, List.map_cons, hR _ _ hxy, ih]

end Pairing

/-- Of a list of computations that know their positions, the result at a position is that of the
entry there. -/
theorem getElem?_of_mapM_zipIdx {f : α × Nat → Except ε β} {xs : List α} {ys : List β}
    (h : xs.zipIdx.mapM f = .ok ys) {i : Nat} {y : β} (hy : ys[i]? = some y) :
    ∃ x, xs[i]? = some x ∧ f (x, i) = .ok y := by
  obtain ⟨⟨x, j⟩, hx, hf⟩ := getElem?_left (mapM_eq_ok_iff.1 h) hy
  rw [List.getElem?_zipIdx, Option.map_eq_some_iff] at hx
  obtain ⟨x', hx', he⟩ := hx
  cases he
  rw [Nat.zero_add] at hf
  exact ⟨x, hx', hf⟩

section Refusals

variable {P : ε → Prop} {x : Except ε α}

/-- A computation is refused, if at all, for a reason of one kind. -/
def RefusedBy (P : ε → Prop) (x : Except ε α) : Prop := ∀ e, x = .error e → P e

namespace RefusedBy

theorem ok (a : α) : RefusedBy P (.ok a : Except ε α) := nofun

theorem error {e : ε} (h : P e) : RefusedBy P (.error e : Except ε α) := by
  intro e' he
  cases he
  exact h

/-- A sequence is refused by one of its steps. -/
theorem bind {f : α → Except ε β} (hx : RefusedBy P x) (hf : ∀ a, RefusedBy P (f a)) :
    RefusedBy P (x >>= f) := by
  cases x with
  | error e => exact error (hx e rfl)
  | ok a => exact hf a

/-- Mapping the result refuses nothing more. -/
theorem map (f : α → β) (hx : RefusedBy P x) : RefusedBy P (x.map f) := by
  cases x with
  | error e => exact error (hx e rfl)
  | ok a => exact ok (f a)

/-- Saying the refusal in other words keeps its reason. -/
theorem mapError {ε' : Type u} {Q : ε' → Prop} {f : ε → ε'} (hx : RefusedBy P x)
    (hf : ∀ e, P e → Q (f e)) : RefusedBy Q (x.mapError f) := by
  cases x with
  | error e => exact error (hf e (hx e rfl))
  | ok a => exact ok a

/-- A list of computations is refused by one of them. -/
theorem mapM {γ : Type*} {f : γ → Except ε α} {xs : List γ}
    (h : ∀ x ∈ xs, RefusedBy P (f x)) : RefusedBy P (xs.mapM f) := by
  induction xs with
  | nil => exact ok []
  | cons x rest ih =>
    rw [List.forall_mem_cons] at h
    rw [List.mapM_cons]
    exact h.1.bind fun y => (ih h.2).bind fun ys => ok (y :: ys)

/-- A list of checks is refused by one of them. -/
theorem forM {γ : Type*} {f : γ → Except ε PUnit} {xs : List γ}
    (h : ∀ x ∈ xs, RefusedBy P (f x)) : RefusedBy P (xs.forM f) := by
  induction xs with
  | nil => exact ok PUnit.unit
  | cons x rest ih =>
    rw [List.forall_mem_cons] at h
    have hrest := ih h.2
    rw [List.forM_eq_forM] at hrest ⊢
    rw [List.forM_cons]
    exact h.1.bind fun _ => hrest

end RefusedBy

end Refusals

end ContractBinding.Outcome
