import EventRouting.Dialogue

namespace EventRouting

namespace Dialogue

variable {Q R : Type} {A : Q → Type} {B : R → Type} {α β : Type} {m : Type → Type} [Monad m]
  (answer : (q : Q) → m (A q))

@[simp] theorem foldM_pure (a : α) : (pure a : Dialogue Q A α).foldM answer = pure a := rfl

variable [LawfulMonad m]

@[simp] theorem foldM_put (q : Q) : (put q : Dialogue Q A (A q)).foldM answer = answer q :=
  bind_pure (answer q)

@[simp] theorem foldM_bind (d : Dialogue Q A α) (f : α → Dialogue Q A β) :
    (d >>= f).foldM answer = d.foldM answer >>= fun a => (f a).foldM answer := by
  induction d with
  | done a => exact (pure_bind a fun a => (f a).foldM answer).symm
  | ask q next ih =>
    calc
      foldM answer (.ask q next >>= f)
        = answer q >>= fun a => (next a >>= f).foldM answer := rfl
      _ = answer q >>= fun a => (next a).foldM answer >>= fun b => (f b).foldM answer := by
        simp only [ih]
      _ = foldM answer (.ask q next) >>= fun a => (f a).foldM answer :=
        (LawfulMonad.bind_assoc _ _ _).symm

theorem foldM_interpret (outer : (r : R) → m (B r)) (inner : (q : Q) → Dialogue R B (A q))
    (d : Dialogue Q A α) :
    (d.interpret inner).foldM outer = d.foldM fun q => (inner q).foldM outer := by
  induction d with
  | done a => rfl
  | ask q next ih =>
    calc
      ((ask q next).interpret inner).foldM outer
        = (inner q).foldM outer >>= fun a => ((next a).interpret inner).foldM outer :=
          foldM_bind outer (inner q) _
      _ = (ask q next).foldM fun q => (inner q).foldM outer := by
        simp only [ih]
        rfl

/-- Whatever the answers are, all questions that are asked are of a kind. -/
def Asks (allowed : Q → Prop) : Dialogue Q A α → Prop
  | .done _ => True
  | .ask q next => allowed q ∧ ∀ a, (next a).Asks allowed

section Asks

variable {allowed : Q → Prop} {wanted : R → Prop}

theorem asks_bind {d : Dialogue Q A α} {f : α → Dialogue Q A β} (hd : d.Asks allowed)
    (hf : ∀ a, (f a).Asks allowed) : (d >>= f).Asks allowed := by
  induction d with
  | done a => exact hf a
  | ask q next ih => exact ⟨hd.1, fun a => ih a (hd.2 a)⟩

theorem asks_put {q : Q} (h : allowed q) : (put q : Dialogue Q A (A q)).Asks allowed :=
  ⟨h, fun _ => trivial⟩

theorem asks_interpret {inner : (q : Q) → Dialogue R B (A q)} (h : ∀ q, (inner q).Asks wanted)
    (d : Dialogue Q A α) : (d.interpret inner).Asks wanted := by
  induction d with
  | done a => exact trivial
  | ask q next ih => exact asks_bind (h q) ih

end Asks

section Stateful

variable {ε σ : Type}

omit [LawfulMonad m] in
/-- A program that leaves a state, under those who answer it. -/
def under (p : ExceptT ε (StateT σ (Dialogue Q A)) α) (s : σ) : m (Except ε α × σ) :=
  (p.run.run s).foldM answer

omit [LawfulMonad m]

@[simp] theorem under_pure (a : α) (s : σ) :
    under answer (pure a : ExceptT ε _ α) s = pure (.ok a, s) := rfl

@[simp] theorem under_throw (e : ε) (s : σ) :
    under answer (throw e : ExceptT ε _ α) s = pure (.error e, s) := rfl

@[simp] theorem under_get (s : σ) :
    under answer (get : ExceptT ε _ σ) s = pure (.ok s, s) := rfl

@[simp] theorem under_set (s t : σ) :
    under answer (set t : ExceptT ε _ PUnit) s = pure (.ok ⟨⟩, t) := rfl

@[simp] theorem under_modify (f : σ → σ) (s : σ) :
    under answer (modify f : ExceptT ε _ PUnit) s = pure (.ok ⟨⟩, f s) := rfl

variable [LawfulMonad m]

@[simp] theorem under_lift (d : Dialogue Q A α) (s : σ) :
    under answer (liftM d : ExceptT ε (StateT σ (Dialogue Q A)) α) s =
      (d.foldM answer >>= fun a => pure (.ok a, s)) := by
  change Dialogue.foldM answer
    ((d >>= fun a => pure (a, s)) >>= fun (a, s) => pure ((.ok a : Except ε α), s)) = _
  rw [foldM_bind, foldM_bind]
  simp only [foldM_pure, LawfulMonad.bind_assoc, LawfulMonad.pure_bind]

@[simp] theorem under_bind (p : ExceptT ε (StateT σ (Dialogue Q A)) α)
    (f : α → ExceptT ε (StateT σ (Dialogue Q A)) β) (s : σ) :
    under answer (p >>= f) s = (under answer p s >>= fun (r, s) =>
      match r with
      | .ok a => under answer (f a) s
      | .error e => pure (.error e, s)) := by
  rw [under, ExceptT.run_bind, StateT.run_bind, foldM_bind]
  refine bind_congr fun (r, s) => ?_
  cases r <;> rfl

@[simp] theorem under_get_bind (f : σ → ExceptT ε (StateT σ (Dialogue Q A)) β) (s : σ) :
    under answer (get >>= f) s = under answer (f s) s := by
  rw [under_bind, under_get, LawfulMonad.pure_bind]

@[simp] theorem under_modify_bind (g : σ → σ) (f : PUnit → ExceptT ε (StateT σ (Dialogue Q A)) β)
    (s : σ) : under answer (modify g >>= f) s = under answer (f ⟨⟩) (g s) := by
  rw [under_bind, under_modify, LawfulMonad.pure_bind]

@[simp] theorem under_throw_bind (e : ε) (f : α → ExceptT ε (StateT σ (Dialogue Q A)) β) (s : σ) :
    under answer (throw e >>= f) s = pure (.error e, s) := by
  rw [under_bind, under_throw, LawfulMonad.pure_bind]

@[simp] theorem under_lift_bind (d : Dialogue Q A α)
    (f : α → ExceptT ε (StateT σ (Dialogue Q A)) β) (s : σ) :
    under answer (liftM d >>= f) s = (d.foldM answer >>= fun a => under answer (f a) s) := by
  rw [under_bind, under_lift, LawfulMonad.bind_assoc]
  simp only [LawfulMonad.pure_bind]

end Stateful

section Results

variable {possible : (q : Q) → A q → Prop} {d : Dialogue Q A α}

/-- A result that a program has if its questions are answered in a suitable way. -/
def Ends (possible : (q : Q) → A q → Prop) : Dialogue Q A α → α → Prop
  | .done a, b => b = a
  | .ask q next, b => ∃ a, possible q a ∧ (next a).Ends possible b

theorem Ends.mono {possible' : (q : Q) → A q → Prop} {a : α} (h : d.Ends possible a)
    (hm : ∀ q b, possible q b → possible' q b) : d.Ends possible' a := by
  induction d with
  | done b => exact h
  | ask q next ih =>
    obtain ⟨b, hb, hn⟩ := h
    exact ⟨b, hm q b hb, ih b hn⟩

theorem ends_put {q : Q} {a : A q} (h : (put q : Dialogue Q A (A q)).Ends possible a) :
    possible q a := by
  obtain ⟨b, hb, rfl⟩ := h
  exact hb

theorem ends_bind {f : α → Dialogue Q A β} {b : β} (h : (d >>= f).Ends possible b) :
    ∃ a, d.Ends possible a ∧ (f a).Ends possible b := by
  induction d with
  | done a => exact ⟨a, rfl, h⟩
  | ask q next ih =>
    obtain ⟨c, hc, hn⟩ := h
    obtain ⟨a, ha, hb⟩ := ih c hn
    exact ⟨a, ⟨c, hc, ha⟩, hb⟩

theorem ends_interpret {inner : (q : Q) → Dialogue R B (A q)}
    {wanted : (r : R) → B r → Prop} {a : α}
    (h : (d.interpret inner).Ends wanted a) : d.Ends (fun q b => (inner q).Ends wanted b) a := by
  induction d with
  | done b => exact h
  | ask q next ih =>
    obtain ⟨b, hb, hn⟩ := ends_bind h
    exact ⟨b, hb, ih b hn⟩

theorem ends_foldM {σ : Type} (answer : (q : Q) → StateM σ (A q)) (d : Dialogue Q A α) (s : σ) :
    d.Ends (fun _ _ => True) ((d.foldM answer).run s).1 := by
  induction d generalizing s with
  | done a => rfl
  | ask q next ih => exact ⟨((answer q).run s).1, trivial, ih _ ((answer q).run s).2⟩

variable {ε σ : Type} {p : ExceptT ε (StateT σ (Dialogue Q A)) α} {s : σ}
  {P P' : Except ε α → σ → Prop}

/-- Whatever the answers are, what becomes of a program and the state that it leaves are of a
kind. -/
def Always (possible : (q : Q) → A q → Prop) (p : ExceptT ε (StateT σ (Dialogue Q A)) α) (s : σ)
    (P : Except ε α → σ → Prop) : Prop :=
  ∀ r t, (p.run.run s).Ends possible (r, t) → P r t

theorem Always.mono (h : Always possible p s P) (hm : ∀ r t, P r t → P' r t) :
    Always possible p s P' :=
  fun r t hr => hm r t (h r t hr)

theorem always_pure {a : α} (h : P (.ok a) s) : Always possible (pure a) s P := by
  intro r t hr
  cases hr
  exact h

theorem always_throw {e : ε} (h : P (.error e) s) : Always possible (throw e) s P := by
  intro r t hr
  cases hr
  exact h

theorem always_bind {f : α → ExceptT ε (StateT σ (Dialogue Q A)) β} {P : Except ε β → σ → Prop}
    (h : Always possible p s fun r t => match r with
      | .ok a => Always possible (f a) t P
      | .error e => P (.error e) t) : Always possible (p >>= f) s P := by
  intro r t hr
  rw [ExceptT.run_bind, StateT.run_bind] at hr
  obtain ⟨⟨r', u⟩, hp, hf⟩ := ends_bind hr
  have hu := h r' u hp
  cases r' with
  | ok a => exact hu r t hf
  | error e =>
    cases hf
    exact hu

theorem always_get {P : Except ε σ → σ → Prop} (h : P (.ok s) s) :
    Always possible (get : ExceptT ε (StateT σ (Dialogue Q A)) σ) s P := by
  intro r t hr
  cases hr
  exact h

theorem always_set {t : σ} {P : Except ε PUnit → σ → Prop} (h : P (.ok ⟨⟩) t) :
    Always possible (set t : ExceptT ε (StateT σ (Dialogue Q A)) PUnit) s P := by
  intro r u hr
  cases hr
  exact h

theorem always_modify {f : σ → σ} {P : Except ε PUnit → σ → Prop} (h : P (.ok ⟨⟩) (f s)) :
    Always possible (modify f : ExceptT ε (StateT σ (Dialogue Q A)) PUnit) s P := by
  intro r t hr
  cases hr
  exact h

theorem always_lift {d : Dialogue Q A α} (h : ∀ a, d.Ends possible a → P (.ok a) s) :
    Always possible (liftM d : ExceptT ε (StateT σ (Dialogue Q A)) α) s P := by
  intro r t hr
  obtain ⟨⟨a, u⟩, ha, he⟩ := ends_bind hr
  obtain ⟨b, hb, hu⟩ := ends_bind ha
  cases hu
  cases he
  exact h a hb

end Results

end Dialogue

end EventRouting
