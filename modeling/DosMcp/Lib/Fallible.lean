/-
  DosMcp.Lib.Fallible — programs that change a state and may raise: what was changed before
  an exception stays changed.

  `Keeps P x`: `x` keeps the state predicate `P`, whether it returns or raises. `raise` and
  `lift` change nothing, so only `modify` has to be looked at. `Returns P x`: where `P` holds
  `x` does not raise, and `P` holds after it. `Counts`: a program beside a counter. `Over`: a
  program on a larger state.
-/

namespace DosMcp.Lib

def Fallible (σ ε α : Type) := σ → Except ε α × σ

namespace Fallible

variable {σ ε α β : Type}

instance : Monad (Fallible σ ε) where
  pure a := fun s => (.ok a, s)
  bind x f := fun s => match x s with
    | (.ok a, s) => f a s
    | (.error e, s) => (.error e, s)

def raise (e : ε) : Fallible σ ε α := fun s => (.error e, s)

def lift (x : Except ε α) : Fallible σ ε α := fun s => (x, s)

def state : Fallible σ ε σ := fun s => (.ok s, s)

def modify (f : σ → σ) : Fallible σ ε Unit := fun s => (.ok (), f s)

/-- `for b in bs: body`. -/
def each (bs : List β) (body : β → Fallible σ ε Unit) : Fallible σ ε Unit := match bs with
  | [] => pure ()
  | b :: bs => body b >>= fun _ => each bs body

/-- `with suppress(..): x`. -/
def suppressing (p : ε → Bool) (x : Fallible σ ε α) : Fallible σ ε Unit := fun s => match x s with
  | (.ok _, s) => (.ok (), s)
  | (.error e, s) => if p e then (.ok (), s) else (.error e, s)

/-- `try: x except: cleanup; raise`. -/
def onRaise (x : Fallible σ ε α) (cleanup : Fallible σ ε Unit) : Fallible σ ε α := fun s => match x s with
  | (.ok a, s) => (.ok a, s)
  | (.error e, s) => match cleanup s with
    | (.ok (), s) => (.error e, s)
    | (.error e', s) => (.error e', s)

@[simp] theorem pure_apply (a : α) (s : σ) : (pure a : Fallible σ ε α) s = (.ok a, s) := rfl

theorem bind_apply (x : Fallible σ ε α) (f : α → Fallible σ ε β) (s : σ) :
    (x >>= f) s = match x s with
      | (.ok a, s) => f a s
      | (.error e, s) => (.error e, s) := rfl

theorem bind_assoc {γ : Type} (x : Fallible σ ε α) (f : α → Fallible σ ε β) (g : β → Fallible σ ε γ) :
    (x >>= f) >>= g = x >>= fun a => f a >>= g := by
  funext s
  simp only [bind_apply]
  rcases x s with ⟨r, t⟩
  cases r <;> rfl

@[simp] theorem raise_apply (e : ε) (s : σ) : (raise e : Fallible σ ε α) s = (.error e, s) := rfl

@[simp] theorem lift_apply (x : Except ε α) (s : σ) : (lift x : Fallible σ ε α) s = (x, s) := rfl

theorem each_append (bs cs : List β) (body : β → Fallible σ ε Unit) :
    each (bs ++ cs) body = each bs body >>= fun _ => each cs body := by
  induction bs with
  | nil => rfl
  | cons b bs ih =>
    show (body b >>= fun _ => each (bs ++ cs) body) = _
    rw [ih]
    exact (bind_assoc _ _ _).symm

theorem lift_ok_bind (a : α) (f : α → Fallible σ ε β) : lift (.ok a) >>= f = f a := rfl

theorem lift_error_bind (e : ε) (f : α → Fallible σ ε β) : lift (.error e) >>= f = raise e := rfl

theorem lift_eq {x y : Except ε α} {s t : σ} (h : (lift x : Fallible σ ε α) s = (y, t)) : x = y ∧ s = t :=
  ⟨congrArg Prod.fst h, congrArg Prod.snd h⟩

@[simp] theorem state_apply (s : σ) : (state : Fallible σ ε σ) s = (.ok s, s) := rfl

@[simp] theorem modify_apply (f : σ → σ) (s : σ) : (modify f : Fallible σ ε Unit) s = (.ok (), f s) := rfl

/-- A bind that returns. -/
theorem bind_eq_ok {x : Fallible σ ε α} {f : α → Fallible σ ε β} {s t : σ} {b : β} (h : (x >>= f) s = (.ok b, t)) :
    ∃ a u, x s = (.ok a, u) ∧ f a u = (.ok b, t) := by
  rw [bind_apply] at h
  split at h
  · exact ⟨_, _, by assumption, h⟩
  · cases h

/-- A bind that raises. -/
theorem bind_eq_error {x : Fallible σ ε α} {f : α → Fallible σ ε β} {s t : σ} {e : ε}
    (h : (x >>= f) s = (.error e, t)) : x s = (.error e, t) ∨ ∃ a u, x s = (.ok a, u) ∧ f a u = (.error e, t) := by
  rw [bind_apply] at h
  split at h
  · exact Or.inr ⟨_, _, by assumption, h⟩
  · rename_i e' u heq
    cases h
    exact Or.inl heq

/-- A program that returns under a cleanup has not run it. -/
theorem onRaise_eq_ok {x : Fallible σ ε α} {cleanup : Fallible σ ε Unit} {s t : σ} {a : α}
    (h : onRaise x cleanup s = (.ok a, t)) : x s = (.ok a, t) := by
  unfold onRaise at h
  split at h
  · rename_i heq
    rw [heq, h]
  · split at h <;> cases h

/-- A lifted value that was bound. -/
theorem lift_bind_eq_ok {x : Except ε α} {f : α → Fallible σ ε β} {s t : σ} {b : β}
    (h : (lift x >>= f) s = (.ok b, t)) : ∃ a, x = .ok a ∧ f a s = (.ok b, t) := by
  cases x with
  | error e => cases h
  | ok a => exact ⟨a, rfl, h⟩

/-! ## Programs that return -/

/-- From every state in `P` the program returns, in a state in `P`. -/
def Returns (P : σ → Prop) (x : Fallible σ ε α) : Prop := ∀ s, P s → ∃ a t, x s = (.ok a, t) ∧ P t

section

variable {P : σ → Prop}

theorem returns_pure (a : α) : Returns P (pure a : Fallible σ ε α) := fun s h => ⟨a, s, rfl, h⟩

theorem returns_modify {f : σ → σ} (hf : ∀ s, P s → P (f s)) : Returns P (modify f : Fallible σ ε Unit) :=
  fun s h => ⟨(), f s, rfl, hf s h⟩

theorem Returns.bind {x : Fallible σ ε α} {f : α → Fallible σ ε β} (hx : Returns P x) (hf : ∀ a, Returns P (f a)) :
    Returns P (x >>= f) := by
  intro s h
  obtain ⟨a, t, heq, ht⟩ := hx s h
  rw [bind_apply, heq]
  exact hf a t ht

/-- A program that reads the state first. -/
theorem returns_state_bind {f : σ → Fallible σ ε α} (hf : ∀ s, P s → Returns P (f s)) : Returns P (state >>= f) :=
  fun s h => hf s h s h

theorem returns_each {bs : List β} {body : β → Fallible σ ε Unit} (h : ∀ b ∈ bs, Returns P (body b)) :
    Returns P (each bs body) := by
  induction bs with
  | nil => exact returns_pure ()
  | cons b bs ih =>
    exact (h b (List.mem_cons_self ..)).bind fun _ => ih fun c hc => h c (List.mem_cons_of_mem _ hc)

theorem returns_ite {c : Prop} [Decidable c] {x y : Fallible σ ε α} (hx : c → Returns P x) (hy : ¬ c → Returns P y) :
    Returns P (if c then x else y) := by
  split
  · next hc => exact hx hc
  · next hc => exact hy hc

end

/-! ## Programs with a counter -/

/-- `counted` is `x` beside a counter that it moves on by `limit` at most. -/
def Counts (limit : Nat) (counted : Fallible (σ × Nat) ε α) (x : Fallible σ ε α) : Prop :=
  ∀ s n, ∃ k ≤ limit, counted (s, n) = ((x s).1, (x s).2, n + k)

theorem counts_lift (v : Except ε α) : Counts 0 (lift v) (lift v : Fallible σ ε α) := fun _ _ => ⟨0, Nat.le_refl 0, rfl⟩

theorem counts_ite {limit : Nat} {c : Prop} [Decidable c] {x' y' : Fallible (σ × Nat) ε α} {x y : Fallible σ ε α}
    (hx : Counts limit x' x) (hy : Counts limit y' y) : Counts limit (if c then x' else y') (if c then x else y) := by
  split
  · exact hx
  · exact hy

theorem Counts.bind {j k : Nat} {x' : Fallible (σ × Nat) ε α} {x : Fallible σ ε α} {f' : α → Fallible (σ × Nat) ε β}
    {f : α → Fallible σ ε β} (hx : Counts j x' x) (hf : ∀ a, Counts k (f' a) (f a)) : Counts (j + k) (x' >>= f') (x >>= f) := by
  intro s n
  obtain ⟨i, hi, heq⟩ := hx s n
  rw [bind_apply, bind_apply, heq]
  rcases x s with ⟨r, t⟩
  cases r with
  | error e => exact ⟨i, Nat.le_trans hi (Nat.le_add_right j k), rfl⟩
  | ok a =>
    obtain ⟨i', hi', heq'⟩ := hf a t (n + i)
    exact ⟨i + i', Nat.add_le_add hi hi', by rw [← Nat.add_assoc]; exact heq'⟩

/-! ## Programs over a larger state -/

section

variable {τ : Type} {abs : τ → σ}

/-- Seen through `abs`, `x'` is `x`. -/
def Over (abs : τ → σ) (x' : Fallible τ ε α) (x : Fallible σ ε α) : Prop :=
  ∀ t, (x' t).1 = (x (abs t)).1 ∧ abs (x' t).2 = (x (abs t)).2

theorem over_pure (a : α) : Over abs (pure a) (pure a : Fallible σ ε α) := fun _ => ⟨rfl, rfl⟩

theorem over_raise (e : ε) : Over abs (raise e) (raise e : Fallible σ ε α) := fun _ => ⟨rfl, rfl⟩

theorem over_lift (v : Except ε α) : Over abs (lift v) (lift v : Fallible σ ε α) := fun _ => ⟨rfl, rfl⟩

theorem over_modify {f' : τ → τ} {f : σ → σ} (h : ∀ t, abs (f' t) = f (abs t)) :
    Over abs (modify f') (modify f : Fallible σ ε Unit) := fun t => ⟨rfl, h t⟩

/-- Both programs read their states first. -/
theorem over_state_bind {f' : τ → Fallible τ ε α} {f : σ → Fallible σ ε α} (h : ∀ t, Over abs (f' t) (f (abs t))) :
    Over abs (state >>= f') (state >>= f) := fun t => h t t

theorem Over.bind {x' : Fallible τ ε α} {x : Fallible σ ε α} {f' : α → Fallible τ ε β} {f : α → Fallible σ ε β}
    (hx : Over abs x' x) (hf : ∀ a, Over abs (f' a) (f a)) : Over abs (x' >>= f') (x >>= f) := by
  intro t
  obtain ⟨hvalue, hstate⟩ := hx t
  rw [bind_apply, bind_apply]
  rcases hx' : x' t with ⟨r', t'⟩
  rcases hx₀ : x (abs t) with ⟨r, s⟩
  rw [hx', hx₀] at hvalue hstate
  obtain rfl : r' = r := hvalue
  obtain rfl : abs t' = s := hstate
  cases r' with
  | error e => exact ⟨rfl, rfl⟩
  | ok a => exact hf a t'

theorem over_ite {c' c : Prop} [Decidable c'] [Decidable c] (hc : c' ↔ c) {x' y' : Fallible τ ε α} {x y : Fallible σ ε α}
    (hx : Over abs x' x) (hy : Over abs y' y) : Over abs (if c' then x' else y') (if c then x else y) := by
  by_cases h : c
  · rw [if_pos (hc.mpr h), if_pos h]
    exact hx
  · rw [if_neg (h ∘ hc.mp), if_neg h]
    exact hy

theorem over_each {bs : List β} {body' : β → Fallible τ ε Unit} {body : β → Fallible σ ε Unit}
    (h : ∀ b, Over abs (body' b) (body b)) : Over abs (each bs body') (each bs body) := by
  induction bs with
  | nil => exact over_pure ()
  | cons b bs ih => exact (h b).bind fun _ => ih

end

/-! ## Predicates kept -/

def Keeps (P : σ → Prop) (x : Fallible σ ε α) : Prop := ∀ s, P s → P (x s).2

variable {P : σ → Prop}

theorem keeps_pure (a : α) : Keeps P (pure a : Fallible σ ε α) := fun _ h => h

theorem keeps_raise (e : ε) : Keeps P (raise e : Fallible σ ε α) := fun _ h => h

theorem keeps_lift (x : Except ε α) : Keeps P (lift x : Fallible σ ε α) := fun _ h => h

theorem keeps_state : Keeps P (state : Fallible σ ε σ) := fun _ h => h

theorem keeps_modify {f : σ → σ} (hf : ∀ s, P s → P (f s)) : Keeps P (modify f : Fallible σ ε Unit) := hf

/-- What `x` leaves, the program after it keeps. -/
theorem holds_bind {x : Fallible σ ε α} {f : α → Fallible σ ε β} {s : σ} (hx : P (x s).2) (hf : ∀ a, Keeps P (f a)) :
    P ((x >>= f) s).2 := by
  rw [bind_apply]
  split
  · rename_i a t heq
    rw [heq] at hx
    exact hf a t hx
  · rename_i e t heq
    rw [heq] at hx
    exact hx

theorem Keeps.bind {x : Fallible σ ε α} {f : α → Fallible σ ε β} (hx : Keeps P x) (hf : ∀ a, Keeps P (f a)) :
    Keeps P (x >>= f) := fun s h => holds_bind (hx s h) hf

/-- A value that was lifted is one its computation returned. -/
theorem keeps_lift_bind {x : Except ε α} {f : α → Fallible σ ε β} (hf : ∀ a, x = .ok a → Keeps P (f a)) :
    Keeps P (lift x >>= f) := by
  intro s h
  rw [bind_apply]
  cases x with
  | error e => exact h
  | ok a => exact hf a rfl s h

/-- A program that keeps `P` and, where it returns, establishes `Q`, with a cleanup that
    establishes `Q` in every other case. -/
theorem onRaise_establishes {Q : σ → Prop} {x : Fallible σ ε α} {cleanup : Fallible σ ε Unit} (hx : Keeps P x)
    (hreturn : ∀ s a t, P s → x s = (.ok a, t) → Q t) (hcleanup : ∀ s, P s → Q (cleanup s).2) {s : σ} (hs : P s) :
    Q (onRaise x cleanup s).2 := by
  have hkept := hx s hs
  unfold onRaise
  split
  · rename_i a t heq
    exact hreturn s a t hs heq
  · rename_i e t heq
    rw [heq] at hkept
    have hq := hcleanup t hkept
    split
    · rename_i u heq'
      rw [heq'] at hq
      exact hq
    · rename_i e' u heq'
      rw [heq'] at hq
      exact hq

theorem keeps_ite {c : Prop} [Decidable c] {x y : Fallible σ ε α} (hx : Keeps P x) (hy : Keeps P y) :
    Keeps P (if c then x else y) := by
  split
  · exact hx
  · exact hy

end Fallible

end DosMcp.Lib
