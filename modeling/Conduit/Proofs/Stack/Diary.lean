import Conduit.Proofs.Stack.Ends

/-!
# Applications that keep a diary

Any application can keep a diary beside what it remembers: of the data that it has written and that was taken, and of
the verdicts that its callbacks have given on data. Nothing else that it does is different.

* `Program.Asks`: what a program asks for, whatever it is answered.
* `withDiary`, `Behaviour.diarist`: an application that keeps a diary.
* `wrote`, `accepted`, `refused`, `ended`: what the diary tells.
* `Exec.Upholds`: what a computation preserves; for a program it is enough that each of its requests does.
-/

namespace Conduit

/-! ## Requests of a program -/

namespace Program

variable {I J : Interface} {α β : Type}

/-- Whatever it is answered, the program asks only for what `P` allows. -/
def Asks (P : I.Req → Prop) : Program I α → Prop
  | .done _ => True
  | .ask r next => P r ∧ ∀ x, (next x).Asks P

/-- A program whose requests are answered by programs. -/
theorem run_run {m : Type → Type} [Monad m] [LawfulMonad m] (f : (r : I.Req) → Program J (I.Ans r))
    (answer : (r : J.Req) → m (J.Ans r)) (p : Program I α) :
    (p.run f).run answer = p.run fun r => (f r).run answer := by
  induction p with
  | done a => rfl
  | ask r next ih =>
    rw [run_ask, run_ask, run_bind]
    simp only [ih]

end Program

/-! ## The diary -/

/-- What is entered in a diary. -/
inductive Deed
  /-- Data was written to a connection, and taken. -/
  | wrote (id : Handle) (data : Bytes)
  /-- The callback of a connection has given its verdict on data, or was told of the end of the stream. -/
  | got (id : Handle) (data : Option Bytes) (verdict : Outcome)
  deriving DecidableEq

/-- The types of an application that keeps a diary. -/
abbrev Host.diarist (H : Host) : Host := { H with Memory := H.Memory × List Deed }

namespace Stack

variable {H : Host} {α : Type}

/-- Enters something in the diary. -/
def enter (d : Deed) : Act H.diarist Unit :=
  .ask .recall fun m => .ask (.remember (m.1, m.2 ++ [d])) .done

/-- A request, and what is entered of it. What the application remembers does not touch the diary. -/
def noted : (r : Req H.diarist) → Act H.diarist r.Ans
  | .ask id (.write data flags) => .ask (.ask id (.write data flags)) fun verdict =>
    match verdict with
    | .ok () => do enter (.wrote id data); pure (.ok ())
    | .error f => pure (.error f)
  | .remember m => .ask .recall fun old => .ask (.remember (m.1, old.2)) .done
  | r => .ask r .done

/-- What an application does, with a diary of it. -/
def withDiary (p : Act H.diarist α) : Act H.diarist α := p.run noted

/-- A callback, with a diary of it. -/
def withVerdict (call : Call) (p : Act H.diarist (H.Code × Outcome)) : Act H.diarist (H.Code × Outcome) := do
  let (code, verdict) ← withDiary p
  match call with
  | .recv me data => enter (.got me data verdict)
  | _ => pure ()
  pure (code, verdict)

end Stack

/-- An application that keeps a diary. -/
def Behaviour.diarist {H : Host} (b : Behaviour H.diarist) : Behaviour H.diarist :=
  { b with
    callback := fun code call => Stack.withVerdict call (b.callback code call)
    pcb := fun p o m => ((b.pcb p o m).1, ((b.pcb p o m).2.1, m.2))
    note := fun n m => ((b.note n m).1, m.2) }

/-- What was written to a connection. -/
def wrote (x : Handle) (ds : List Deed) : Bytes :=
  ds.flatMap fun
    | .wrote id data => if id = x then data else []
    | _ => []

/-- The data that the callback of a connection has accepted. -/
def accepted (y : Handle) (ds : List Deed) : Bytes :=
  ds.flatMap fun
    | .got id (some data) (.ok _) => if id = y then data else []
    | _ => []

/-- Whether the callback of a connection has refused data. -/
def refused (y : Handle) (ds : List Deed) : Bool :=
  ds.any fun
    | .got id (some _) (.error _) => id = y
    | _ => false

/-- Whether the callback of a connection was told of the end of the stream. -/
def ended (y : Handle) (ds : List Deed) : Bool :=
  ds.any fun
    | .got id none _ => id = y
    | _ => false

variable {x y : Handle} {ds ds' : List Deed}

@[simp] theorem wrote_append : wrote x (ds ++ ds') = wrote x ds ++ wrote x ds' := List.flatMap_append

@[simp] theorem accepted_append : accepted y (ds ++ ds') = accepted y ds ++ accepted y ds' := List.flatMap_append

@[simp] theorem refused_append : refused y (ds ++ ds') = (refused y ds || refused y ds') := List.any_append

@[simp] theorem ended_append : ended y (ds ++ ds') = (ended y ds || ended y ds') := List.any_append

theorem wrote_wrote (x : Handle) (data : Bytes) : wrote x [.wrote x data] = data := by
  simp [wrote]

theorem wrote_wrote_of_ne {id : Handle} (h : id ≠ x) (data : Bytes) : wrote x [.wrote id data] = [] := by
  simp [wrote, h]

@[simp] theorem wrote_got (x id : Handle) (data : Option Bytes) (v : Outcome) : wrote x [.got id data v] = [] := rfl

@[simp] theorem accepted_end (y id : Handle) (v : Outcome) : accepted y [.got id none v] = [] := by
  cases v <;> rfl

@[simp] theorem accepted_refused (y id : Handle) (data : Option Bytes) (f : Fault) :
    accepted y [.got id data (.error f)] = [] := by
  cases data <;> rfl

theorem accepted_accepted (y : Handle) (data : Bytes) : accepted y [.got y (some data) (.ok ())] = data := by
  simp [accepted]

theorem accepted_of_ne {id : Handle} (h : id ≠ y) (data : Option Bytes) (v : Outcome) : accepted y [.got id data v] = [] := by
  cases data <;> cases v <;> simp [accepted, h]

@[simp] theorem refused_accepted (y id : Handle) (data : Option Bytes) (u : Unit) :
    refused y [.got id data (.ok u)] = false := by
  cases data <;> rfl

@[simp] theorem refused_end (y id : Handle) (v : Outcome) : refused y [.got id none v] = false := by
  cases v <;> rfl

theorem refused_refused (y : Handle) (data : Bytes) (f : Fault) : refused y [.got y (some data) (.error f)] = true := by
  simp [refused]

theorem refused_of_ne {id : Handle} (h : id ≠ y) (data : Option Bytes) (v : Outcome) :
    refused y [.got id data v] = false := by
  cases data <;> cases v <;> simp [refused, h]

@[simp] theorem ended_data (y id : Handle) (data : Bytes) (v : Outcome) : ended y [.got id (some data) v] = false := rfl

theorem ended_end (y : Handle) (v : Outcome) : ended y [.got y none v] = true := by
  simp [ended]

theorem ended_of_ne {id : Handle} (h : id ≠ y) (data : Option Bytes) (v : Outcome) : ended y [.got id data v] = false := by
  cases data <;> simp [ended, h]

/-- Where a connection was told nothing, it has accepted nothing. -/
theorem accepted_eq_nil (h : ∀ d v, .got y d v ∉ ds) : accepted y ds = [] := by
  induction ds with
  | nil => rfl
  | cons d ds ih =>
    have htail := ih fun d v hm => h d v (List.mem_cons_of_mem _ hm)
    rw [← List.singleton_append, accepted_append, htail, List.append_nil]
    cases d with
    | wrote id data => rfl
    | got id data v =>
      refine accepted_of_ne (fun hid => ?_) data v
      subst hid
      exact h data v List.mem_cons_self

/-! ## What is preserved -/

namespace Exec

variable {H : Host} {α β : Type} {J : World H → Prop}

/-- Every run that begins in a world of which `J` holds, and ends, ends in such a world. -/
def Upholds (J : World H → Prop) (m : Exec H α) : Prop := ∀ w, J w → Ends m w fun _ w' => J w'

theorem Upholds.bind {m : Exec H α} {f : α → Exec H β} (hm : Upholds J m) (hf : ∀ a, Upholds J (f a)) :
    Upholds J (m >>= f) := fun w hw => (ends_bind _ _).2 ((hm w hw).mono fun a w' => hf a w')

theorem upholds_pure (a : α) : Upholds J (pure a : Exec H α) := fun _ hw => (ends_pure a).2 hw

/-- **What each request of a program preserves**, the program does. -/
theorem upholds_run {I : Interface} {P : I.Req → Prop} {answer : (r : I.Req) → Exec H (I.Ans r)}
    (h : ∀ r, P r → Upholds J (answer r)) {p : Program I α} (hp : p.Asks P) : Upholds J (p.run answer) := by
  induction p with
  | done a => exact upholds_pure a
  | ask r next ih => exact (h r hp.1).bind fun x => ih x (hp.2 x)

theorem upholds_forM {γ : Type} {f : γ → Exec H PUnit} {l : List γ} (h : ∀ a ∈ l, Upholds J (f a)) :
    Upholds J (l.forM f) := by
  induction l with
  | nil => exact upholds_pure _
  | cons a l ih =>
    exact (h a List.mem_cons_self).bind fun _ => ih fun a' ha' => h a' (List.mem_cons_of_mem _ ha')

end Exec

end Conduit
