import MessageLookup.Proofs.FirstDecisive
import MessageLookup.Proofs.Resumption
import MessageLookup.Proofs.SessionLookups

/-! Sessions whose lookups do not meet. A host that has replies of its own for a code keeps its
place in them, so what a lookup of the code comes to is fixed by the lookups of that code before it.
Neither other codes nor the streams matter. -/

namespace MessageLookup

namespace Answers

variable {ρ : Type}

/-- The replies that are left for a code alone. -/
def own? (code : Int32) : Answers ρ → Option (Playlist ρ)
  | steady _ => none
  | scripted script => script.own code

theorem own?_advance (a : Answers ρ) (code : Int32) :
    (a.advance code).own? code = (a.own? code).map Playlist.advance := by
  cases a with
  | steady f => rfl
  | scripted script =>
    simp only [advance, own?, Script.advance]
    cases h : script.own code <;> simp [h]

theorem own?_advance_of_ne {code other : Int32} (h : code ≠ other) (a : Answers ρ) :
    (a.advance other).own? code = a.own? code := by
  cases a with
  | steady f => rfl
  | scripted script =>
    simp only [advance, own?, Script.advance]
    cases script.own other <;> simp [h]

theorem own?_iterate (a : Answers ρ) (code : Int32) (n : Nat) :
    ((·.advance code)^[n] a).own? code = (a.own? code).map Playlist.advance^[n] := by
  induction n with
  | zero => simp
  | succ n ih =>
    rw [Function.iterate_succ_apply', own?_advance, ih, Option.map_map, Function.iterate_succ']

theorem own?_iterate_of_ne {code other : Int32} (h : code ≠ other) (a : Answers ρ) (n : Nat) :
    ((·.advance other)^[n] a).own? code = a.own? code := by
  induction n with
  | zero => rfl
  | succ n ih => rw [Function.iterate_succ_apply', own?_advance_of_ne h, ih]

theorem reply_of_own? {a : Answers ρ} {code : Int32} {p : Playlist ρ} (h : a.own? code = some p) :
    a.reply code = p.current := by
  cases a with
  | steady f => cases h
  | scripted script =>
    have h : script.own code = some p := h
    simp [reply, Script.reply, h]

/-- A code that has replies of its own gets no others. -/
theorem replyAt_congr {a a' : Answers ρ} {code : Int32} (hown : (a.own? code).isSome)
    (h : a'.own? code = a.own? code) (j : Nat) : a'.replyAt code j = a.replyAt code j := by
  obtain ⟨p, hp⟩ := Option.isSome_iff_exists.1 hown
  have hleft : ∀ a : Answers ρ, a.own? code = some p →
      a.replyAt code j = (Playlist.advance^[j] p).current := by
    intro a ha
    refine reply_of_own? ?_
    rw [own?_iterate, ha]
    rfl
  rw [hleft a hp, hleft a' (h.trans hp)]

end Answers

theorem Resolver.answers_resolve {b : Backend} (r : Resolver) (code : Int32) (h : Host b) :
    (r.resolve code h).2.answers =
      (·.advance code)^[(r.resolve code h).1.calls.length] h.answers := by
  obtain ⟨k, -, hres⟩ := r.resolve_spec code h
  rw [hres, r.answers_hostAt, List.length_map, List.length_range]

namespace Step

variable {b : Backend}

def spares (code : Int32) (st : Step b) : Bool := st.code?.all (· == code)

/-- The second step is the first, or does its lookup without reporting it. -/
inductive Unreports : Step b → Step b → Prop where
  | same (st : Step b) : Unreports st st
  | report (code : Int32) : Unreports (report code) (resolve code)
  | reportShared (code : Int32) : Unreports (reportShared code) (describe code)

section Unreports

variable {st st' : Step b} (h : Unreports st st')
include h

theorem Unreports.code?_eq : st'.code? = st.code? := by
  cases h <;> rfl

theorem Unreports.resolverFor_eq {s t : Session b} (hresolver : t.resolver = s.resolver) :
    t.resolverFor st' = s.resolverFor st := by
  cases h with
  | same => cases st <;> first | exact hresolver | rfl
  | report => exact hresolver
  | reportShared => rfl

end Unreports

end Step

namespace Session

variable {b : Backend}

/-- Two sessions in which lookups of a code come to the same. -/
structure Alike (code : Int32) (s t : Session b) : Prop where
  resolver : t.resolver = s.resolver
  own : t.host.answers.own? code = s.host.answers.own? code

section Alike

variable {code : Int32} {s t : Session b} {st : Step b}

theorem Alike.resolverFor (h : Alike code s t) : t.resolverFor st = s.resolverFor st := by
  cases st <;> first | exact h.resolver | rfl

theorem own?_step_lookup (s : Session b) (h : st.code? = some code) :
    (s.step st).2.host.answers.own? code =
      (s.host.answers.own? code).map
        Playlist.advance^[((s.resolverFor st).resolve code s.host).1.calls.length] := by
  rw [(s.step_lookup h).host, Resolver.answers_resolve, Answers.own?_iterate]

theorem isSome_own?_step (s : Session b) (hinstall : ∀ answers, st ≠ .install answers) :
    ((s.step st).2.host.answers.own? code).isSome = (s.host.answers.own? code).isSome := by
  cases hst : st.code? with
  | none => rw [(s.step_idle hst).same_host hinstall]
  | some other =>
    by_cases hne : code = other
    · subst hne
      rw [own?_step_lookup s hst, Option.isSome_map]
    · rw [(s.step_lookup hst).host, Resolver.answers_resolve, Answers.own?_iterate_of_ne hne]

theorem Alike.found_eq (h : Alike code s t) (hown : (s.host.answers.own? code).isSome)
    (hset : (s.resolverFor st).SetsErrno code s.host) :
    ((t.resolverFor st).resolve code t.host).1 = ((s.resolverFor st).resolve code s.host).1 := by
  have hreply := Answers.replyAt_congr hown h.own
  obtain ⟨k, hk⟩ := (s.resolverFor st).exists_length_calls code s.host
  rw [h.resolverFor]
  exact hset.resolve_eq hk (hreply k) fun j _ => Or.inl (hreply j)

theorem Alike.step_lookup (h : Alike code s t) (hst : st.code? = some code)
    (hown : (s.host.answers.own? code).isSome)
    (hset : (s.resolverFor st).SetsErrno code s.host) :
    Alike code (s.step st).2 (t.step st).2 ∧
      (t.looked st code).trace = (s.looked st code).trace := by
  have hfound := h.found_eq hown hset
  have hs := s.step_lookup hst
  have ht := t.step_lookup hst
  refine ⟨⟨by rw [hs.resolver, ht.resolver, h.resolver], ?_⟩, ?_⟩
  · rw [own?_step_lookup s hst, own?_step_lookup t hst, hfound, h.own]
  · simp only [looked, Looked.trace, Looked.found, hs.calls, hs.log, ht.calls, ht.log, hfound]

/-- A lookup of another code in one of the sessions makes no difference. -/
theorem Alike.step_other (h : Alike code s t) {other : Int32} (hst : st.code? = some other)
    (hne : other ≠ code) : Alike code (s.step st).2 t := by
  have hs := s.step_lookup hst
  refine ⟨by rw [hs.resolver, h.resolver], ?_⟩
  rw [hs.host, Resolver.answers_resolve, Answers.own?_iterate_of_ne hne.symm, h.own]

theorem Alike.step_idle (h : Alike code s t) (hst : st.code? = none)
    (hinstall : ∀ answers, st ≠ .install answers) : Alike code (s.step st).2 (t.step st).2 := by
  have hs := s.step_idle hst
  have ht := t.step_idle hst
  exact ⟨hs.resolver t h.resolver, by rw [hs.same_host hinstall, ht.same_host hinstall, h.own]⟩

theorem Alike.lookups_eq {steps : List (Step b)} (h : Alike code s t)
    (hinstall : ∀ answers, .install answers ∉ steps)
    (hown : ∀ st ∈ steps, st.code? = some code → (s.host.answers.own? code).isSome)
    (hset : ∀ l ∈ s.lookups steps, l.resolver.SetsErrno l.code l.host) :
    (t.lookups (steps.filter (Step.spares code))).map Looked.trace =
      ((s.lookups steps).filter fun l => l.code = code).map Looked.trace := by
  induction steps generalizing s t with
  | nil => rfl
  | cons st steps ih =>
    have hst : ∀ answers, st ≠ .install answers := fun answers he =>
      hinstall answers (he ▸ List.mem_cons_self)
    have hinstall' : ∀ answers, Step.install answers ∉ steps := fun answers hmem =>
      hinstall answers (List.mem_cons_of_mem st hmem)
    have hown' : ∀ st' ∈ steps, st'.code? = some code →
        ((s.step st).2.host.answers.own? code).isSome := fun st' hmem hcode => by
      rw [isSome_own?_step s hst]
      exact hown st' (List.mem_cons_of_mem st hmem) hcode
    cases hcode : st.code? with
    | none =>
      rw [s.lookups_cons_of_none steps hcode] at hset ⊢
      rw [List.filter_cons_of_pos (by simp [Step.spares, hcode]), t.lookups_cons_of_none _ hcode]
      exact ih (h.step_idle hcode hst) hinstall' hown' hset
    | some other =>
      rw [s.lookups_cons_of_some steps hcode] at hset ⊢
      obtain ⟨hset, hset'⟩ := List.forall_mem_cons.1 hset
      by_cases hne : other = code
      · subst hne
        obtain ⟨hnext, htrace⟩ := h.step_lookup hcode (hown st List.mem_cons_self hcode) hset
        rw [List.filter_cons_of_pos (by simp [Step.spares, hcode]), t.lookups_cons_of_some _ hcode,
          List.filter_cons_of_pos (by simp [looked]), List.map_cons, List.map_cons, htrace,
          ih hnext hinstall' hown' hset']
      -- deleted from the one session, and invisible to the code in the other
      · rw [List.filter_cons_of_neg (by simp [Step.spares, hcode, hne]),
          List.filter_cons_of_neg (by simp [looked, hne])]
        exact ih (h.step_other hcode hne) hinstall' hown' hset'

end Alike

end Session

/-- A lookup of a session with reports, and the same one where some are not made. -/
structure Looked.Unreported {b : Backend} (l l' : Looked b) : Prop where
  code : l'.code = l.code
  answer : l'.found.answer = l.found.answer
  calls : l'.result.calls = l.result.calls
  /-- A step that was not replaced logs the same. -/
  log : l'.step.reports = l.step.reports → l'.result.log = l.result.log
  /-- A report that was replaced logged one line more, if the lookup failed. -/
  log_replaced : l.step.reports = true → l'.step.reports = false →
    l.result.log.map Event.line = l'.result.log.map Event.line ++
      match l.found.answer with
      | .ok _ => []
      | .error e => [⟨.debug, "could not resolve error code", l.code, none, some e.message⟩]

namespace Session

variable {b : Backend} {s t : Session b}

theorem looked_unreported (hresolver : t.resolver = s.resolver) (hhost : t.host = s.host)
    {st st' : Step b} (h : Step.Unreports st st') {code : Int32} (hst : st.code? = some code) :
    (s.looked st code).Unreported (t.looked st' code) := by
  have hst' := h.code?_eq.trans hst
  have hfor := h.resolverFor_eq hresolver
  have hs := s.step_lookup hst
  have ht := t.step_lookup hst'
  rw [hfor, hhost] at ht
  refine ⟨rfl, ?_, ht.calls.trans hs.calls.symm, fun hsame => ?_, fun hreports hquiet => ?_⟩
  · simp only [looked, Looked.found, hfor, hhost]
  · have hsame : st'.reports = st.reports := hsame
    simp only [looked, hs.log, ht.log, hsame]
  · have hreports : st.reports = true := hreports
    have hquiet : st'.reports = false := hquiet
    simp only [looked, hs.log, ht.log, hreports, hquiet, if_true, Looked.found]
    rw [if_neg Bool.false_ne_true, List.append_nil, List.map_append]
    cases ((s.resolverFor st).resolve code s.host).1.answer <;> rfl

/-- Reports, and what becomes of them, do not show in the lookups. -/
theorem lookups_unreported {steps steps' : List (Step b)}
    (hsteps : List.Forall₂ Step.Unreports steps steps') (hresolver : t.resolver = s.resolver)
    (hhost : t.host = s.host) :
    List.Forall₂ Looked.Unreported (s.lookups steps) (t.lookups steps') := by
  induction hsteps generalizing s t with
  | nil => exact .nil
  | @cons st st' steps steps' hst _ ih =>
    cases hcode : st.code? with
    | none =>
      have hsame : st' = st := by cases hst <;> first | rfl | cases hcode
      subst hsame
      rw [s.lookups_cons_of_none steps hcode, t.lookups_cons_of_none steps' hcode]
      have hs := s.step_idle hcode
      exact ih (hs.resolver t hresolver) (hs.host t hhost)
    | some code =>
      have hcode' := hst.code?_eq.trans hcode
      rw [s.lookups_cons_of_some steps hcode, t.lookups_cons_of_some steps' hcode']
      have hs := s.step_lookup hcode
      have ht := t.step_lookup hcode'
      refine .cons (looked_unreported hresolver hhost hst hcode) (ih ?_ ?_)
      · rw [hs.resolver, ht.resolver, hresolver]
      · rw [hs.host, ht.host, hst.resolverFor_eq hresolver, hhost]

end Session

/-- A code that has replies of its own is looked up as if no other code was, and the streams and the
reports do not matter to any lookup. -/
theorem lookups_do_not_interfere {b : Backend} (s : Session b) (steps : List (Step b))
    (hinstall : ∀ answers, .install answers ∉ steps)
    (hown : ∀ st ∈ steps, ∀ code, st.code? = some code → (s.host.answers.own? code).isSome)
    (hset : ∀ l ∈ s.lookups steps, l.resolver.SetsErrno l.code l.host) :
    (∀ (t : Session b) (ts : List (Step b)),
      (t.lookups ts).map Looked.result = (t.run ts).1.filter StepResult.isLookup ∧
      ∀ l ∈ t.lookups ts, l.result.calls = l.found.calls ∧
        ∀ a, l.result.answer? = some a → a = l.found.answer) ∧
    (∀ code, (s.lookups (steps.filter (Step.spares code))).map Looked.trace =
      ((s.lookups steps).filter fun l => l.code = code).map Looked.trace) ∧
    ∀ (streams : Streams) (steps' : List (Step b)), List.Forall₂ Step.Unreports steps steps' →
      List.Forall₂ Looked.Unreported (s.lookups steps)
        ({ s with streams := streams }.lookups steps') := by
  refine ⟨fun t ts => ⟨t.lookups_results ts, t.lookups_found ts⟩, fun code => ?_,
    fun streams steps' h => ?_⟩
  · have halike : Session.Alike code s s := ⟨rfl, rfl⟩
    exact halike.lookups_eq hinstall (fun st hmem hst => hown st hmem code hst) hset
  · exact Session.lookups_unreported h rfl rfl

/-- Replies of a host that first has no room for the message of code 5 and does not know code 7. -/
def Script.interleaved : Script StatusReply where
  own := fun code =>
    if code = 5 then
      some ⟨{ report := ⟨-1, some 34⟩ },
        [{ data := some (Utf8.encode "Input/output error"), report := ⟨0, none⟩ }]⟩
    else if code = 7 then some ⟨{ report := ⟨-1, some 22⟩ }, []⟩
    else none
  common := ⟨.refusal, []⟩

/-- A session on these replies, with an error stream that takes nothing. -/
def Session.interleaved : Session .xsi where
  resolver := .sized 8 32
  host := { answers := .scripted .interleaved }
  streams := { err := { limit := some 0 } }

theorem lookups_do_not_interfere_interleaved :
    let s := Session.interleaved
    let steps : List (Step .xsi) := [.report 7, .resolve 5, .describe 7, .report 5]
    (∀ answers, .install answers ∉ steps) ∧
      (∀ st ∈ steps, ∀ code, st.code? = some code → (s.host.answers.own? code).isSome) ∧
      (∀ l ∈ s.lookups steps, l.resolver.SetsErrno l.code l.host) ∧
      (s.lookups [.resolve 5, .report 5]).map Looked.trace =
        ((s.lookups steps).filter fun l => l.code = 5).map Looked.trace ∧
      List.Forall₂ Looked.Unreported (s.lookups steps)
        ({ s with streams := {} }.lookups [.resolve 7, .resolve 5, .describe 7, .resolve 5]) := by
  intro s steps
  have hinstall : ∀ answers, .install answers ∉ steps := by simp [steps]
  have hown : ∀ st ∈ steps, ∀ code, st.code? = some code → (s.host.answers.own? code).isSome := by
    simp only [steps, List.forall_mem_cons, Step.code?, Option.some.injEq]
    simp [s, Session.interleaved, Answers.own?, Script.interleaved]
  have hset : ∀ l ∈ s.lookups steps, l.resolver.SetsErrno l.code l.host := by decide +kernel
  obtain ⟨-, hdeleted, hquiet⟩ := lookups_do_not_interfere s steps hinstall hown hset
  refine ⟨hinstall, hown, hset, hdeleted 5, hquiet {} _ ?_⟩
  exact .cons (.report 7) (.cons (.same _) (.cons (.same _) (.cons (.report 5) .nil)))

end MessageLookup
