import Mathlib.Init

/-!
# Programs that change a state and throw

`EStateM ε σ` is the monad of such programs, and what was done to the state before a
throw stays done. `Triple P m Q E` says what a run of `m` leaves : from a state with `P`,
either a result and a state related by `Q`, or, after a throw, a state with `E`. In
`Ends P m Q E`, what holds after a throw depends on what was thrown. The rules follow the
constructs of a program.
-/

namespace Barry

variable {ε σ α β : Type}

/-- From states with `P`, the program returns with `Q` or throws with `E`. -/
def Triple (P : σ → Prop) (m : EStateM ε σ α) (Q : α → σ → Prop) (E : σ → Prop) : Prop :=
  ∀ s, P s → match m s with
    | .ok a s' => Q a s'
    | .error _ s' => E s'

/-- The state a program leaves, returning or throwing. -/
def finalState (m : EStateM ε σ α) (s : σ) : σ :=
  match m s with
  | .ok _ s' => s'
  | .error _ s' => s'

section Run

variable {m : EStateM ε σ α} {s s' : σ}

theorem bind_ok {f : α → EStateM ε σ β} {a : α} (h : m s = .ok a s') : (m >>= f) s = f a s' := by
  change EStateM.bind m f s = _
  rw [EStateM.bind, h]

theorem bind_error {f : α → EStateM ε σ β} {e : ε} (h : m s = .error e s') :
    (m >>= f) s = .error e s' := by
  change EStateM.bind m f s = _
  rw [EStateM.bind, h]

theorem bind_get (f : σ → EStateM ε σ β) : (get >>= f) s = f s s := rfl

theorem bind_set (t : σ) (f : PUnit → EStateM ε σ β) : (set t >>= f) s = f ⟨⟩ t := rfl

theorem bind_modify (g : σ → σ) (f : PUnit → EStateM ε σ β) :
    ((modify g : EStateM ε σ PUnit) >>= f) s = f ⟨⟩ (g s) := rfl

theorem tryCatch_ok {f : ε → EStateM ε σ α} {a : α} (h : m s = .ok a s') :
    (tryCatch m f) s = .ok a s' := by
  change EStateM.tryCatch m f s = _
  delta EStateM.tryCatch
  dsimp only
  rw [h]

theorem tryCatch_error {f : ε → EStateM ε σ α} {e : ε} (h : m s = .error e s') :
    (tryCatch m f) s = f e s' := by
  change EStateM.tryCatch m f s = _
  delta EStateM.tryCatch
  dsimp only
  rw [h]
  rfl

theorem finalState_bind_get (f : σ → EStateM ε σ α) :
    finalState (get >>= f) s = finalState (f s) s := rfl

theorem finalState_ok {a : α} (h : m s = .ok a s') : finalState m s = s' := by
  rw [finalState, h]

theorem finalState_error {e : ε} (h : m s = .error e s') : finalState m s = s' := by
  rw [finalState, h]

end Run

namespace Triple

variable {P P' : σ → Prop} {Q Q' : α → σ → Prop} {R : β → σ → Prop} {E E' : σ → Prop}

protected theorem mono {m : EStateM ε σ α} (h : Triple P m Q E) (hP : ∀ s, P' s → P s)
    (hQ : ∀ a s, Q a s → Q' a s) (hE : ∀ s, E s → E' s) : Triple P' m Q' E' := by
  intro s hs
  have hm := h s (hP s hs)
  split <;> rename_i heq <;> rw [heq] at hm
  · exact hQ _ _ hm
  · exact hE _ hm

/-- A stronger precondition. -/
protected theorem pre {m : EStateM ε σ α} (h : Triple P m Q E) (hP : ∀ s, P' s → P s) :
    Triple P' m Q E :=
  h.mono hP (fun _ _ => id) fun _ => id

protected theorem pure {a : α} (h : ∀ s, P s → Q a s) : Triple P (pure a : EStateM ε σ α) Q E :=
  h

protected theorem bind {m : EStateM ε σ α} {f : α → EStateM ε σ β} (hm : Triple P m Q E)
    (hf : ∀ a, Triple (Q a) (f a) R E) : Triple P (m >>= f) R E := by
  intro s hs
  have h := hm s hs
  change match EStateM.bind m f s with
    | .ok b s' => R b s'
    | .error _ s' => E s'
  unfold EStateM.bind
  cases hms : m s with
  | ok a s' =>
    rw [hms] at h
    exact hf a s' h
  | error e s' =>
    rw [hms] at h
    exact h

protected theorem throw {e : ε} (h : ∀ s, P s → E s) : Triple P (throw e : EStateM ε σ α) Q E :=
  h

protected theorem get : Triple P (get : EStateM ε σ σ) (fun a s => a = s ∧ P s) E :=
  fun _ hs => ⟨rfl, hs⟩

protected theorem set {t : σ} {Q : PUnit → σ → Prop} (h : ∀ s, P s → Q ⟨⟩ t) :
    Triple P (set t : EStateM ε σ PUnit) Q E :=
  h

protected theorem modify {f : σ → σ} {Q : PUnit → σ → Prop} (h : ∀ s, P s → Q ⟨⟩ (f s)) :
    Triple P (modify f : EStateM ε σ PUnit) Q E :=
  h

protected theorem ite {c : Prop} [Decidable c] {m n : EStateM ε σ α} (hm : c → Triple P m Q E)
    (hn : ¬c → Triple P n Q E) : Triple P (if c then m else n) Q E := by
  split
  · exact hm ‹_›
  · exact hn ‹_›

/-- What holds after a throw is what the handler starts from. -/
protected theorem tryCatch {m : EStateM ε σ α} {f : ε → EStateM ε σ α} (hm : Triple P m Q E')
    (hf : ∀ e, Triple E' (f e) Q E) : Triple P (tryCatch m f) Q E := by
  intro s hs
  have h := hm s hs
  change match EStateM.tryCatch m f s with
    | .ok a s' => Q a s'
    | .error _ s' => E s'
  delta EStateM.tryCatch
  dsimp only
  cases hms : m s with
  | ok a s' =>
    rw [hms] at h
    exact h
  | error e s' =>
    rw [hms] at h
    exact hf e s' h

/-- A program that leaves `P` however it ends, leaves it in its final state. -/
protected theorem final {m : EStateM ε σ α} (h : Triple P m (fun _ => E) E) {s : σ} (hs : P s) :
    E (finalState m s) := by
  have hm := h s hs
  unfold finalState
  split <;> rename_i heq <;> rw [heq] at hm <;> exact hm

end Triple

/-- From states with `P`, the program returns with `Q` or throws with `E`. -/
def Ends (P : σ → Prop) (m : EStateM ε σ α) (Q : α → σ → Prop) (E : ε → σ → Prop) : Prop :=
  ∀ s, P s → match m s with
    | .ok a s' => Q a s'
    | .error e s' => E e s'

namespace Ends

variable {P P' : σ → Prop} {Q Q' : α → σ → Prop} {R : β → σ → Prop} {E E' : ε → σ → Prop}

theorem ok {m : EStateM ε σ α} (h : Ends P m Q E) {s s' : σ} (hs : P s) {a : α}
    (hm : m s = .ok a s') :
    Q a s' := by
  have := h s hs
  rwa [hm] at this

theorem error {m : EStateM ε σ α} (h : Ends P m Q E) {s s' : σ} (hs : P s) {e : ε}
    (hm : m s = .error e s') : E e s' := by
  have := h s hs
  rwa [hm] at this

protected theorem mono {m : EStateM ε σ α} (h : Ends P m Q E) (hP : ∀ s, P' s → P s)
    (hQ : ∀ a s, Q a s → Q' a s) (hE : ∀ e s, E e s → E' e s) : Ends P' m Q' E' := by
  intro s hs
  have hm := h s (hP s hs)
  split <;> rename_i heq <;> rw [heq] at hm
  · exact hQ _ _ hm
  · exact hE _ _ hm

protected theorem pre {m : EStateM ε σ α} (h : Ends P m Q E) (hP : ∀ s, P' s → P s) :
    Ends P' m Q E :=
  h.mono hP (fun _ _ => id) fun _ _ => id

/-- A weaker condition after a throw. -/
protected theorem throws {m : EStateM ε σ α} (h : Ends P m Q E) (hE : ∀ e s, E e s → E' e s) :
    Ends P m Q E' :=
  h.mono (fun _ => id) (fun _ _ => id) hE

protected theorem pure {a : α} (h : ∀ s, P s → Q a s) : Ends P (pure a : EStateM ε σ α) Q E :=
  h

protected theorem bind {m : EStateM ε σ α} {f : α → EStateM ε σ β} (hm : Ends P m Q E)
    (hf : ∀ a, Ends (Q a) (f a) R E) : Ends P (m >>= f) R E := by
  intro s hs
  cases hms : m s with
  | ok a s' =>
    rw [bind_ok hms]
    exact hf a s' (hm.ok hs hms)
  | error e s' =>
    rw [bind_error hms]
    exact hm.error hs hms

protected theorem throw {e : ε} (h : ∀ s, P s → E e s) : Ends P (throw e : EStateM ε σ α) Q E :=
  h

protected theorem get : Ends P (get : EStateM ε σ σ) (fun a s => a = s ∧ P s) E :=
  fun _ hs => ⟨rfl, hs⟩

protected theorem set {t : σ} {Q : PUnit → σ → Prop} (h : ∀ s, P s → Q ⟨⟩ t) :
    Ends P (set t : EStateM ε σ PUnit) Q E :=
  h

protected theorem modify {f : σ → σ} {Q : PUnit → σ → Prop} (h : ∀ s, P s → Q ⟨⟩ (f s)) :
    Ends P (modify f : EStateM ε σ PUnit) Q E :=
  h

/-- A change to the state, of which what follows knows the state before it. -/
protected theorem getSet {f : σ → σ} {J : σ → σ → Prop} {m : σ → EStateM ε σ α}
    (hf : ∀ s, P s → J s (f s)) (hm : ∀ s, Ends (J s) (m s) Q E) :
    Ends P (do
      let s ← get
      set (f s)
      m s) Q E :=
  fun s hs => hm s (f s) (hf s hs)

protected theorem ite {c : Prop} [Decidable c] {m n : EStateM ε σ α} (hm : c → Ends P m Q E)
    (hn : ¬c → Ends P n Q E) : Ends P (if c then m else n) Q E := by
  split
  · exact hm ‹_›
  · exact hn ‹_›

/-- What holds after a throw is what the handler starts from. -/
protected theorem tryCatch {m : EStateM ε σ α} {f : ε → EStateM ε σ α} (hm : Ends P m Q E')
    (hf : ∀ e, Ends (E' e) (f e) Q E) : Ends P (tryCatch m f) Q E := by
  intro s hs
  cases hms : m s with
  | ok a s' =>
    rw [tryCatch_ok hms]
    exact hm.ok hs hms
  | error e s' =>
    rw [tryCatch_error hms]
    exact hf e s' (hm.error hs hms)

/-- A program that leaves `P` however it ends, leaves it in its final state. -/
protected theorem final {m : EStateM ε σ α} {I : σ → Prop}
    (h : Ends P m (fun _ => I) fun _ => I) {s : σ} (hs : P s) : I (finalState m s) := by
  cases hms : m s with
  | ok a s' => exact finalState_ok hms ▸ h.ok hs hms
  | error e s' => exact finalState_error hms ▸ h.error hs hms

end Ends

end Barry
