namespace Kit

/-- What a generator has done when it is left: the items it yielded, its state, and its result or the
    exception that ended it. Items and state survive the exception. -/
structure Outcome (ω σ ε α : Type) where
  yielded : List ω
  state : σ
  result : Except ε α

def Generator (ω σ ε α : Type) : Type := σ → Outcome ω σ ε α

namespace Generator

variable {ω σ ε α β : Type}

instance : Monad (Generator ω σ ε) where
  pure a := fun s => ⟨[], s, .ok a⟩
  bind g f := fun s =>
    match g s with
    | ⟨yielded, s, .ok a⟩ =>
      let rest := f a s
      ⟨yielded ++ rest.yielded, rest.state, rest.result⟩
    | ⟨yielded, s, .error e⟩ => ⟨yielded, s, .error e⟩

def raise (e : ε) : Generator ω σ ε α := fun s => ⟨[], s, .error e⟩

def current : Generator ω σ ε σ := fun s => ⟨[], s, .ok s⟩

def modify (change : σ → σ) : Generator ω σ ε Unit := fun s => ⟨[], change s, .ok ()⟩

/-- Change the state and yield the items that the change produces. -/
def emit (act : σ → List ω × σ) : Generator ω σ ε Unit := fun s => ⟨(act s).1, (act s).2, .ok ()⟩

/-- As `emit`, for an act that may raise before it does anything. -/
def emitOr (e : ε) (act : σ → Option (List ω × σ)) : Generator ω σ ε Unit := fun s =>
  match act s with
  | none => ⟨[], s, .error e⟩
  | some (yielded, s) => ⟨yielded, s, .ok ()⟩

def whenever (test : Prop) [Decidable test] (body : Generator ω σ ε Unit) : Generator ω σ ε Unit :=
  if test then body else pure ()

def forEach : List α → (α → Generator ω σ ε Unit) → Generator ω σ ε Unit
  | [], _ => pure ()
  | a :: rest, body => do
    body a
    forEach rest body

/-- `try: body` with one `except Exception` that does not raise again. -/
def attempt (body : Generator ω σ ε Unit) (handler : ε → Generator ω σ ε Unit) : Generator ω σ ε Unit := fun s =>
  match body s with
  | ⟨yielded, s, .ok ()⟩ => ⟨yielded, s, .ok ()⟩
  | ⟨yielded, s, .error e⟩ =>
    let rest := handler e s
    ⟨yielded ++ rest.yielded, rest.state, rest.result⟩

/-- `try: body` with `finally: cleanup`. An exception of the cleanup replaces that of the body. -/
def ensure (body cleanup : Generator ω σ ε Unit) : Generator ω σ ε Unit := fun s =>
  let first := body s
  let last := cleanup first.state
  ⟨first.yielded ++ last.yielded, last.state, match last.result with
    | .ok () => first.result
    | .error e => .error e⟩

/-- From every history and state that meet `pre`, the generator ends normally in `post` or by an
    exception in `fail`. -/
def Triple (pre : List ω → σ → Prop) (g : Generator ω σ ε α) (post : α → List ω → σ → Prop)
    (fail : List ω → σ → Prop) : Prop :=
  ∀ history s, pre history s →
    match (g s).result with
    | .ok a => post a (history ++ (g s).yielded) (g s).state
    | .error _ => fail (history ++ (g s).yielded) (g s).state

/-- The generator keeps what relates the history to the state, also when it raises. -/
def Keeps (inv : List ω → σ → Prop) (g : Generator ω σ ε α) : Prop := Triple inv g (fun _ => inv) inv

variable {pre : List ω → σ → Prop} {fail inv : List ω → σ → Prop}

theorem Triple.pure {post : α → List ω → σ → Prop} {a : α} (holds : ∀ history s, pre history s → post a history s) :
    Triple pre (Pure.pure a : Generator ω σ ε α) post fail := by
  intro history s before
  have after := holds history s before
  simpa [Pure.pure] using after

theorem Triple.bind {g : Generator ω σ ε α} {f : α → Generator ω σ ε β} {middle : α → List ω → σ → Prop}
    {post : β → List ω → σ → Prop} (first : Triple pre g middle fail)
    (second : ∀ a, Triple (middle a) (f a) post fail) : Triple pre (g >>= f) post fail := by
  intro history s before
  have here := first history s before
  simp only [Bind.bind]
  revert here
  rcases g s with ⟨yielded, s', result⟩
  intro here
  cases result with
  | error e => exact here
  | ok a =>
    have later := second a _ _ here
    dsimp only at later ⊢
    rw [← List.append_assoc]
    exact later

theorem Triple.weaken {g : Generator ω σ ε α} {pre' : List ω → σ → Prop} {post post' : α → List ω → σ → Prop}
    {fail' : List ω → σ → Prop} (triple : Triple pre g post fail) (before : ∀ h s, pre' h s → pre h s)
    (after : ∀ a h s, post a h s → post' a h s) (failed : ∀ h s, fail h s → fail' h s) :
    Triple pre' g post' fail' := by
  intro history s start
  have here := triple history s (before history s start)
  cases result : (g s).result with
  | error e =>
    rw [result] at here
    exact failed _ _ here
  | ok a =>
    rw [result] at here
    exact after a _ _ here

theorem Triple.before {g : Generator ω σ ε α} {pre' : List ω → σ → Prop} {post : α → List ω → σ → Prop}
    (triple : Triple pre g post fail) (implies : ∀ h s, pre' h s → pre h s) : Triple pre' g post fail :=
  triple.weaken implies (fun _ _ _ holds => holds) fun _ _ failed => failed

theorem Triple.after {g : Generator ω σ ε α} {post post' : α → List ω → σ → Prop} (triple : Triple pre g post fail)
    (implies : ∀ a h s, post a h s → post' a h s) : Triple pre g post' fail :=
  triple.weaken (fun _ _ holds => holds) implies fun _ _ failed => failed

theorem Triple.otherwise {g : Generator ω σ ε α} {post : α → List ω → σ → Prop} {fail' : List ω → σ → Prop}
    (triple : Triple pre g post fail) (implies : ∀ h s, fail h s → fail' h s) : Triple pre g post fail' :=
  triple.weaken (fun _ _ holds => holds) (fun _ _ _ holds => holds) implies

theorem Triple.both {g : Generator ω σ ε α} {pre' : List ω → σ → Prop} {post post' : α → List ω → σ → Prop}
    {fail' : List ω → σ → Prop} (one : Triple pre g post fail) (other : Triple pre' g post' fail') :
    Triple (fun h s => pre h s ∧ pre' h s) g (fun a h s => post a h s ∧ post' a h s) fun h s => fail h s ∧ fail' h s := by
  intro history s start
  have first := one history s start.1
  have second := other history s start.2
  cases result : (g s).result with
  | error e =>
    rw [result] at first second
    exact ⟨first, second⟩
  | ok a =>
    rw [result] at first second
    exact ⟨first, second⟩

theorem Triple.or {g : Generator ω σ ε α} {pre' : List ω → σ → Prop} {post post' : α → List ω → σ → Prop}
    {fail' : List ω → σ → Prop} (one : Triple pre g post fail) (other : Triple pre' g post' fail') :
    Triple (fun h s => pre h s ∨ pre' h s) g (fun a h s => post a h s ∨ post' a h s) fun h s => fail h s ∨ fail' h s := by
  intro history s start
  rcases start with left | right
  · have here := one history s left
    cases result : (g s).result with
    | error e =>
      rw [result] at here
      exact .inl here
    | ok a =>
      rw [result] at here
      exact .inl here
  · have here := other history s right
    cases result : (g s).result with
    | error e =>
      rw [result] at here
      exact .inr here
    | ok a =>
      rw [result] at here
      exact .inr here

theorem bind_assoc {γ : Type} (g : Generator ω σ ε α) (f : α → Generator ω σ ε β) (h : β → Generator ω σ ε γ) :
    (g >>= f) >>= h = g >>= fun a => f a >>= h := by
  funext s
  simp only [Bind.bind]
  rcases g s with ⟨first, s', result⟩
  cases result with
  | error e => rfl
  | ok a =>
    dsimp only
    rcases f a s' with ⟨second, s'', result⟩
    cases result with
    | error e => rfl
    | ok b =>
      dsimp only
      rw [List.append_assoc]

theorem bind_of_ok {g : Generator ω σ ε α} {f : α → Generator ω σ ε β} {s : σ} {a : α} (ended : (g s).result = .ok a) :
    (g >>= f) s =
      ⟨(g s).yielded ++ (f a (g s).state).yielded, (f a (g s).state).state, (f a (g s).state).result⟩ := by
  simp only [Bind.bind]
  revert ended
  rcases g s with ⟨yielded, s', result⟩
  intro ended
  dsimp only at ended
  rw [ended]

theorem Triple.raise {post : α → List ω → σ → Prop} {e : ε} (holds : ∀ h s, pre h s → fail h s) :
    Triple pre (raise e : Generator ω σ ε α) post fail := by
  intro history s before
  have after := holds history s before
  simpa [Generator.raise] using after

theorem Triple.current : Triple pre (current : Generator ω σ ε σ) (fun a h s => a = s ∧ pre h s) fail := by
  intro history s before
  simpa [Generator.current] using before

theorem Triple.modify {change : σ → σ} {post : Unit → List ω → σ → Prop}
    (holds : ∀ h s, pre h s → post () h (change s)) : Triple pre (modify change : Generator ω σ ε Unit) post fail := by
  intro history s before
  have after := holds history s before
  simpa [Generator.modify] using after

theorem Triple.emit {act : σ → List ω × σ} {post : Unit → List ω → σ → Prop}
    (holds : ∀ h s, pre h s → post () (h ++ (act s).1) (act s).2) :
    Triple pre (emit act : Generator ω σ ε Unit) post fail :=
  fun history s before => holds history s before

theorem Triple.emitOr {e : ε} {act : σ → Option (List ω × σ)} {post : Unit → List ω → σ → Prop}
    (raised : ∀ h s, pre h s → act s = none → fail h s)
    (holds : ∀ h s yielded s', pre h s → act s = some (yielded, s') → post () (h ++ yielded) s') :
    Triple pre (emitOr e act) post fail := by
  intro history s before
  simp only [Generator.emitOr]
  cases acted : act s with
  | none =>
    have after := raised history s before acted
    simpa using after
  | some done => exact holds history s done.1 done.2 before acted

theorem Triple.ite {test : Prop} [Decidable test] {yes no : Generator ω σ ε α} {post : α → List ω → σ → Prop}
    (left : test → Triple pre yes post fail) (right : ¬ test → Triple pre no post fail) :
    Triple pre (if test then yes else no) post fail := by
  by_cases holds : test
  · rw [if_pos holds]
    exact left holds
  · rw [if_neg holds]
    exact right holds

theorem Triple.whenever {test : Prop} [Decidable test] {body : Generator ω σ ε Unit}
    (keeps : Triple inv body (fun _ => inv) fail) : Triple inv (whenever test body) (fun _ => inv) fail :=
  Triple.ite (fun _ => keeps) fun _ => Triple.pure fun _ _ holds => holds

theorem Triple.forEach {items : List α} {body : α → Generator ω σ ε Unit}
    (keeps : ∀ a ∈ items, Triple inv (body a) (fun _ => inv) fail) :
    Triple inv (forEach items body) (fun _ => inv) fail := by
  induction items with
  | nil => exact Triple.pure fun _ _ holds => holds
  | cons a rest ih =>
    refine Triple.bind (keeps a List.mem_cons_self) fun _ => ?_
    exact ih fun b member => keeps b (List.mem_cons_of_mem _ member)

/-- What the precondition says apart from history and state is at hand for the proof. -/
theorem Triple.given {fact : Prop} {g : Generator ω σ ε α} {post : α → List ω → σ → Prop}
    (known : ∀ h s, pre h s → fact) (triple : fact → Triple pre g post fail) : Triple pre g post fail :=
  fun history s before => triple (known history s before) history s before

theorem Triple.known {fact : Prop} {g : Generator ω σ ε α} {post : α → List ω → σ → Prop}
    (triple : fact → Triple pre g post fail) : Triple (fun h s => fact ∧ pre h s) g post fail :=
  fun history s before => triple before.1 history s before.2

/-- What never ends normally is not followed by anything. -/
theorem Triple.bind_raises {g : Generator ω σ ε α} {f : α → Generator ω σ ε β} {post : β → List ω → σ → Prop}
    (raises : Triple pre g (fun _ _ _ => False) fail) : Triple pre (g >>= f) post fail :=
  Triple.bind raises fun _ _ _ no => no.elim

theorem Triple.exists {ι : Type} {pres : ι → List ω → σ → Prop} {g : Generator ω σ ε α}
    {post : α → List ω → σ → Prop} (each : ∀ i, Triple (pres i) g post fail) :
    Triple (fun h s => ∃ i, pres i h s) g post fail := by
  rintro history s ⟨i, before⟩
  exact each i history s before

/-- What holds at the end in either case. -/
theorem Triple.always {g : Generator ω σ ε α} (triple : Triple pre g (fun _ => fail) fail) (history : List ω) (s : σ)
    (start : pre history s) : fail (history ++ (g s).yielded) (g s).state := by
  have here := triple history s start
  cases result : (g s).result with
  | ok a =>
    rw [result] at here
    exact here
  | error e =>
    rw [result] at here
    exact here

/-- What cannot raise ends normally, in `post`. -/
theorem Triple.ends {g : Generator ω σ ε α} {post : α → List ω → σ → Prop}
    (triple : Triple pre g post fun _ _ => False) (history : List ω) (s : σ) (start : pre history s) :
    ∃ a, (g s).result = .ok a ∧ post a (history ++ (g s).yielded) (g s).state := by
  have here := triple history s start
  cases result : (g s).result with
  | ok a =>
    rw [result] at here
    exact ⟨a, rfl, here⟩
  | error e =>
    rw [result] at here
    exact here.elim

theorem Triple.attempt {body : Generator ω σ ε Unit} {handler : ε → Generator ω σ ε Unit}
    {post : Unit → List ω → σ → Prop} {caught : List ω → σ → Prop} (tried : Triple pre body post caught)
    (handled : ∀ e, Triple caught (handler e) post fail) : Triple pre (attempt body handler) post fail := by
  intro history s before
  have here := tried history s before
  simp only [Generator.attempt]
  revert here
  rcases body s with ⟨yielded, s', result⟩
  intro here
  cases result with
  | ok a => exact here
  | error e =>
    have later := handled e _ _ here
    dsimp only at later ⊢
    rw [← List.append_assoc]
    exact later

end Generator

end Kit
