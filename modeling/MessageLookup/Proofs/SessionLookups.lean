import MessageLookup.Proofs.Reports
import MessageLookup.Session

/-! The lookups of a session. Whatever a step does with the answer, it looks a code up at most once,
on the host as the steps before it left it. A report is a lookup that also says in the log why it
failed, and its streams do not show in what the host did. -/

namespace MessageLookup

namespace Step

variable {b : Backend}

/-- The code that a step looks up, if it does. -/
def code? : Step b → Option Int32
  | resolve code => some code
  | describe code => some code
  | report code => some code
  | reportShared code => some code
  | configure _ => none
  | install _ => none
  | shared => none

def reports : Step b → Bool
  | report _ => true
  | reportShared _ => true
  | _ => false

end Step

/-- What an outcome shows of the answer. A report that could not be written shows nothing. -/
def Outcome.answer? : Outcome → Option Answer
  | described message => some (.ok message)
  | failed error => some (.error error)
  | unwritten _ => none

theorem Outcome.eq_of_answer?_unless {failure : Option WriteFailure} {a a' : Answer}
    (h : (Outcome.unless failure a.outcome).answer? = some a') : a' = a := by
  cases failure with
  | none => cases a <;> exact (Option.some.inj h).symm
  | some f => cases h

namespace StepResult

def calls : StepResult → List Call
  | resolved found => found.calls
  | reported done => done.calls
  | _ => []

def log : StepResult → List Event
  | resolved found => found.log
  | reported done => done.log
  | _ => []

def answer? : StepResult → Option Answer
  | resolved found => some found.answer
  | reported done => done.outcome.answer?
  | _ => none

def isLookup : StepResult → Bool
  | resolved _ => true
  | reported _ => true
  | _ => false

end StepResult

/-- What a report adds to the log of its lookup. -/
def Answer.unresolved (code : Int32) : Answer → List Event
  | .ok _ => []
  | .error e => [.unresolved code e]

/-- A lookup in a session: the resolver and the host that it finds, and what its step answers. -/
structure Looked (b : Backend) where
  step : Step b
  code : Int32
  resolver : Resolver
  host : Host b
  result : StepResult

/-- What the lookup itself comes to. -/
def Looked.found {b : Backend} (l : Looked b) : Resolution := (l.resolver.resolve l.code l.host).1

/-- The answer of the lookup, with the calls and the log of its step. -/
def Looked.trace {b : Backend} (l : Looked b) : Answer × List Call × List Event :=
  (l.found.answer, l.result.calls, l.result.log)

/-- A report leaves the state and the calls of its lookup, and adds to its log why it failed. -/
theorem report_lookup {σ : Type} (lookup : Lookup σ) (code : Int32) (streams : Streams) (s : σ) :
    let done := report lookup code streams s
    let found := lookup.resolve code s
    done.2 = found.2 ∧ done.1.calls = found.1.calls ∧
      done.1.log = found.1.log ++ found.1.answer.unresolved code ∧
      ∀ a, done.1.outcome.answer? = some a → a = found.1.answer := by
  intro done found
  have htrace : done.2 = found.2 ∧ done.1.calls = found.1.calls ∧
      done.1.log = found.1.log ++ found.1.answer.unresolved code := by
    cases ha : found.1.answer with
    | ok m =>
      rw [show done = _ from report_of_ok ha streams]
      exact ⟨rfl, rfl, (List.append_nil _).symm⟩
    | error e =>
      rw [show done = _ from report_of_error ha streams]
      exact ⟨rfl, rfl, rfl⟩
  refine ⟨htrace.1, htrace.2.1, htrace.2.2, fun a h => ?_⟩
  rw [show done.1.outcome = _ from report_outcome lookup code streams s] at h
  exact Outcome.eq_of_answer?_unless h

namespace Session

variable {b : Backend}

/-- The resolver that a step uses for a lookup: the configured one or the shared one. -/
def resolverFor (s : Session b) : Step b → Resolver
  | .resolve _ => s.resolver
  | .report _ => s.resolver
  | _ => .shared

/-- The streams apart, the step is a lookup. -/
structure LooksUp (s : Session b) (st : Step b) (found : Resolution × Host b) (code : Int32) :
    Prop where
  resolver : (s.step st).2.resolver = s.resolver
  host : (s.step st).2.host = found.2
  isLookup : (s.step st).1.isLookup = true
  calls : (s.step st).1.calls = found.1.calls
  log : (s.step st).1.log =
    found.1.log ++ if st.reports then found.1.answer.unresolved code else []
  answer : ∀ a, (s.step st).1.answer? = some a → a = found.1.answer

/-- The step is no lookup, and what it does to the resolver and to the host is up to these alone. -/
structure Idles (s : Session b) (st : Step b) : Prop where
  isLookup : (s.step st).1.isLookup = false
  resolver : ∀ t : Session b, t.resolver = s.resolver →
    (t.step st).2.resolver = (s.step st).2.resolver
  host : ∀ t : Session b, t.host = s.host → (t.step st).2.host = (s.step st).2.host
  same_host : (∀ answers, st ≠ .install answers) → (s.step st).2.host = s.host

theorem step_lookup (s : Session b) {st : Step b} {code : Int32} (h : st.code? = some code) :
    s.LooksUp st ((s.resolverFor st).resolve code s.host) code := by
  cases st with
  | configure options => cases h
  | install answers => cases h
  | shared => cases h
  | resolve c =>
    obtain rfl := Option.some.inj h
    exact ⟨rfl, rfl, rfl, rfl, (List.append_nil _).symm, fun a h => (Option.some.inj h).symm⟩
  | describe c =>
    obtain rfl := Option.some.inj h
    exact ⟨rfl, rfl, rfl, rfl, (List.append_nil _).symm, fun a h => (Option.some.inj h).symm⟩
  | report c =>
    obtain rfl := Option.some.inj h
    obtain ⟨hhost, hcalls, hlog, hanswer⟩ := report_lookup (s.resolver.lookup b) c s.streams s.host
    exact ⟨rfl, hhost, rfl, hcalls, hlog, hanswer⟩
  | reportShared c =>
    obtain rfl := Option.some.inj h
    obtain ⟨hhost, hcalls, hlog, hanswer⟩ :=
      report_lookup (Resolver.shared.lookup b) c s.streams s.host
    exact ⟨rfl, hhost, rfl, hcalls, hlog, hanswer⟩

theorem step_idle (s : Session b) {st : Step b} (h : st.code? = none) : s.Idles st := by
  cases st with
  | configure options => exact ⟨rfl, fun _ _ => rfl, fun _ ht => ht, fun _ => rfl⟩
  | install answers =>
    exact ⟨rfl, fun _ ht => ht, fun _ ht => congrArg (Host.install · answers) ht,
      fun hne => absurd rfl (hne answers)⟩
  | shared => exact ⟨rfl, fun _ ht => ht, fun _ ht => ht, fun _ => rfl⟩
  | resolve c => cases h
  | describe c => cases h
  | report c => cases h
  | reportShared c => cases h

def looked (s : Session b) (st : Step b) (code : Int32) : Looked b :=
  ⟨st, code, s.resolverFor st, s.host, (s.step st).1⟩

/-- The lookups of a run, in order. -/
def lookups (s : Session b) : List (Step b) → List (Looked b)
  | [] => []
  | st :: steps => (st.code?.map (s.looked st)).toList ++ (s.step st).2.lookups steps

section Lookups

variable (s : Session b) {st : Step b} (steps : List (Step b))

theorem lookups_cons_of_some {code : Int32} (h : st.code? = some code) :
    s.lookups (st :: steps) = s.looked st code :: (s.step st).2.lookups steps := by
  rw [lookups, h]
  rfl

theorem lookups_cons_of_none (h : st.code? = none) :
    s.lookups (st :: steps) = (s.step st).2.lookups steps := by
  rw [lookups, h]
  rfl

/-- The lookups answer what the run does, and show the calls and the answer of what they find. -/
theorem lookups_results :
    (s.lookups steps).map Looked.result = (s.run steps).1.filter StepResult.isLookup := by
  induction steps generalizing s with
  | nil => rfl
  | cons st steps ih =>
    rw [run]
    cases h : st.code? with
    | none =>
      rw [s.lookups_cons_of_none steps h, ih]
      simp [(s.step_idle h).isLookup]
    | some code =>
      rw [s.lookups_cons_of_some steps h, List.map_cons, ih]
      simp [(s.step_lookup h).isLookup, looked]

theorem lookups_found :
    ∀ l ∈ s.lookups steps, l.result.calls = l.found.calls ∧
      ∀ a, l.result.answer? = some a → a = l.found.answer := by
  induction steps generalizing s with
  | nil => simp [lookups]
  | cons st steps ih =>
    cases h : st.code? with
    | none =>
      rw [s.lookups_cons_of_none steps h]
      exact ih _
    | some code =>
      rw [s.lookups_cons_of_some steps h, List.forall_mem_cons]
      have hstep := s.step_lookup h
      exact ⟨⟨hstep.calls, hstep.answer⟩, ih _⟩

end Lookups

end Session

end MessageLookup
