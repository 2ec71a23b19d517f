import Mathlib
import RowGraph.Proofs.Keyed
import RowGraph.Proofs.Schema.History

/-!
What a registry answers after a history of requests.

A program registers models and asks for descriptors, of any model or of one that is known already.
The first answer that gives the descriptor of a model settles it.  Up to then the answer is what the
declarations yield for the models registered so far, whatever else was asked in between; so of the
history only the registrations and the requests for the model itself matter, and requests that
failed do not matter at all.
-/

namespace RowGraph
namespace Registry

/-! ## Requests and answers -/

inductive Request where
  | register (model : String)
  | describe (model : String)
  /-- The descriptor of a model, provided that the model is known. -/
  | describeKnown (model : String)
  deriving DecidableEq

inductive Answer where
  | registered
  | described (outcome : Outcome Descriptor)
  | known (outcome : Outcome (Option Descriptor))

namespace Request

def registered? : Request → Option String
  | register model => some model
  | describe _ => none
  | describeKnown _ => none

/-- The model whose descriptor is asked for. -/
def asked? : Request → Option String
  | register _ => none
  | describe model => some model
  | describeKnown model => some model

/-- The requests that may bear on the descriptor of a model: all registrations, and the requests for
the descriptor itself. -/
def concerns (model : String) (q : Request) : Bool :=
  q.asked?.all (· == model)

end Request

namespace Answer

/-- The descriptor that was given. -/
def descriptor? : Answer → Option Descriptor
  | registered => none
  | described outcome => outcome.toOption
  | known outcome => outcome.toOption.join

def failed : Answer → Bool
  | registered => false
  | described outcome => !outcome.isOk
  | known outcome => !outcome.isOk

end Answer

/-- The models registered in the course of a history, each where it was registered first. -/
def registrations (history : List Request) : List String :=
  (history.filterMap Request.registered?).eraseDups

def perform (r : Registry) : Request → Answer × Registry
  | .register model => (.registered, r.register model)
  | .describe model => (r.describe model).map .described id
  | .describeKnown model => (r.describeKnown model).map .known id

def after (r : Registry) (history : List Request) : Registry :=
  history.foldl (fun r q => (r.perform q).2) r

/-- The answer to a request that follows a history, the registry being fresh at its start. -/
def answer (c : Catalogue) (history : List Request) (q : Request) : Answer :=
  (((ofCatalogue c).after history).perform q).1

/-- Some request of the history was answered by the descriptor of the model. -/
def Gave (c : Catalogue) (history : List Request) (model : String) (d : Descriptor) : Prop :=
  ∃ before q later, history = before ++ q :: later ∧ q.asked? = some model ∧
    (answer c before q).descriptor? = some d

variable {c : Catalogue} {r s : Registry} {model : String} {q : Request}
  {history : List Request}

/-! ## One request -/

theorem descriptor_of_find? {d : Descriptor} (h : r.described.find? model = some d) :
    r.descriptor model = .ok d := by
  rw [descriptor, h]

theorem descriptor_of_find?_none (h : r.described.find? model = none) :
    r.descriptor model = r.catalogue.resolve r.registered model := by
  rw [descriptor, h]

theorem describe_of_ok {d : Descriptor} (h : r.descriptor model = .ok d) :
    r.describe model = (.ok d, { r with described := r.described.putNew model d }) := by
  rw [describe, h]

theorem describe_of_error {e : Error} (h : r.descriptor model = .error e) :
    r.describe model = (.error e, r) := by
  rw [describe, h]

/-- Registering a model changes the registrations alone. -/
theorem register_frame (r : Registry) (model : String) :
    (r.register model).catalogue = r.catalogue ∧ (r.register model).described = r.described := by
  rw [register]
  split
  next => exact ⟨rfl, rfl⟩
  next => exact ⟨rfl, rfl⟩

theorem registered_register (r : Registry) (model : String) :
    (r.register model).registered =
      if model ∈ r.registered then r.registered else r.registered ++ [model] := by
  rw [register]
  by_cases h : model ∈ r.registered
  · rw [if_pos h, if_pos (List.contains_iff_mem.mpr h)]
  · rw [if_neg h, if_neg (mt List.contains_iff_mem.mp h)]

/-- Whether those who ask for the descriptor of a known model get one. -/
def knows (r : Registry) (model : String) : Bool :=
  r.described.has model || r.registered.contains model

theorem describeKnown_of_knows (h : r.knows model = true) :
    r.describeKnown model = (r.describe model).map (·.map some) id := by
  rw [describeKnown, ← knows, if_pos h]
  rfl

theorem describeKnown_of_not_knows (h : r.knows model = false) :
    r.describeKnown model = (.ok none, r) := by
  rw [describeKnown, ← knows, h]
  rfl

theorem answer_describe (r : Registry) (model : String) :
    (r.perform (.describe model)).1 = .described (r.descriptor model) :=
  congrArg Answer.described (fst_describe r model)

theorem answer_describeKnown (r : Registry) (model : String) :
    (r.perform (.describeKnown model)).1 =
      .known (if r.knows model then (r.descriptor model).map some else .ok none) := by
  rw [perform]
  cases hknown : r.knows model with
  | false =>
    rw [describeKnown_of_not_knows hknown]
    rfl
  | true =>
    rw [describeKnown_of_knows hknown, if_pos rfl, ← fst_describe]
    rfl

/-- A request does one of three things to a registry: it registers a model, keeps the descriptor
that it gives, or leaves everything as it is. -/
theorem perform_cases (r : Registry) (q : Request) :
    (∃ model, q = .register model ∧ r.perform q = (.registered, r.register model)) ∨
    (∃ model d, q.asked? = some model ∧ (r.perform q).1.descriptor? = some d ∧
      r.descriptor model = .ok d ∧
      (r.perform q).2 = { r with described := r.described.putNew model d }) ∨
    ∃ model, q.asked? = some model ∧ (r.perform q).1.descriptor? = none ∧ (r.perform q).2 = r := by
  cases q with
  | register model => exact Or.inl ⟨model, rfl, rfl⟩
  | describe model =>
    rw [perform]
    cases h : r.descriptor model with
    | ok d =>
      rw [describe_of_ok h]
      exact Or.inr (Or.inl ⟨model, d, rfl, rfl, h, rfl⟩)
    | error e =>
      rw [describe_of_error h]
      exact Or.inr (Or.inr ⟨model, rfl, rfl, rfl⟩)
  | describeKnown model =>
    rw [perform]
    cases hknown : r.knows model with
    | false =>
      rw [describeKnown_of_not_knows hknown]
      exact Or.inr (Or.inr ⟨model, rfl, rfl, rfl⟩)
    | true =>
      rw [describeKnown_of_knows hknown]
      cases h : r.descriptor model with
      | ok d =>
        rw [describe_of_ok h]
        exact Or.inr (Or.inl ⟨model, d, rfl, rfl, h, rfl⟩)
      | error e =>
        rw [describe_of_error h]
        exact Or.inr (Or.inr ⟨model, rfl, rfl, rfl⟩)

theorem descriptor?_of_failed {a : Answer} (h : a.failed = true) : a.descriptor? = none := by
  cases a with
  | registered => cases h
  | described outcome =>
    cases outcome with
    | ok d => cases h
    | error e => rfl
  | known outcome =>
    cases outcome with
    | ok d => cases h
    | error e => rfl

theorem perform_of_failed (h : (r.perform q).1.failed = true) : (r.perform q).2 = r := by
  rcases perform_cases r q with ⟨model, -, hq⟩ | ⟨model, d, -, hgiven, -⟩ | ⟨model, -, -, hsame⟩
  · rw [hq] at h
    cases h
  · rw [descriptor?_of_failed h] at hgiven
    cases hgiven
  · exact hsame

/-- Asking for a descriptor registers nothing. -/
theorem perform_frame (h : q.asked? = some model) :
    (r.perform q).2.catalogue = r.catalogue ∧ (r.perform q).2.registered = r.registered := by
  rcases perform_cases r q with ⟨_, rfl, -⟩ | ⟨_, d, -, -, -, hkept⟩ | ⟨_, -, -, hsame⟩
  · cases h
  · rw [hkept]
    exact ⟨rfl, rfl⟩
  · rw [hsame]
    exact ⟨rfl, rfl⟩

/-- The descriptor kept for a model is the first one given to a request for it. -/
theorem find?_perform (r : Registry) (q : Request) (model : String) :
    (r.perform q).2.described.find? model = (r.described.find? model).or
      (if q.asked? = some model then (r.perform q).1.descriptor? else none) := by
  rcases perform_cases r q with ⟨m, rfl, hq⟩ | ⟨m, d, hasked, hgiven, -, hkept⟩ |
    ⟨m, hasked, hnone, hsame⟩
  · rw [hq, (register_frame r m).2]
    exact Option.or_none.symm
  · rw [hkept, hgiven, hasked, Keyed.find?_putNew]
    simp only [Option.some.injEq]
  · rw [hsame, hnone, ite_self, Option.or_none]

/-- A descriptor that is kept answers every request for it. -/
theorem descriptor?_of_find? {d : Descriptor} (h : r.described.find? model = some d)
    (hq : q.asked? = some model) : (r.perform q).1.descriptor? = some d := by
  cases q with
  | register m => cases hq
  | describe m =>
    cases hq
    rw [answer_describe, descriptor_of_find? h]
    rfl
  | describeKnown m =>
    cases hq
    have hknows : r.knows model = true := by
      rw [knows, Keyed.has, h]
      rfl
    rw [answer_describeKnown, hknows, descriptor_of_find? h]
    rfl

theorem descriptor_of_given {d : Descriptor} (hq : q.asked? = some model)
    (h : (r.perform q).1.descriptor? = some d) : r.descriptor model = .ok d := by
  rcases perform_cases r q with ⟨_, rfl, -⟩ | ⟨_, d', hasked, hgiven, hd, -⟩ | ⟨_, -, hnone, -⟩
  · cases hq
  · cases hq.symm.trans hasked
    cases h.symm.trans hgiven
    exact hd
  · rw [hnone] at h
    cases h

/-! ## A history -/

theorem after_concat (r : Registry) (history : List Request) (q : Request) :
    r.after (history ++ [q]) = ((r.after history).perform q).2 := by
  rw [after, List.foldl_append]
  rfl

theorem after_append (r : Registry) (history later : List Request) :
    r.after (history ++ later) = (r.after history).after later :=
  List.foldl_append

theorem registrations_register (history : List Request) (model : String) :
    registrations (history ++ [.register model]) =
      if model ∈ registrations history then registrations history
      else registrations history ++ [model] := by
  have hfilter : [Request.register model].filterMap Request.registered? = [model] := rfl
  rw [registrations, List.filterMap_append, hfilter, eraseDups_concat, registrations]
  simp only [List.mem_eraseDups]

theorem registrations_of_asked (history : List Request) (h : q.asked? = some model) :
    registrations (history ++ [q]) = registrations history := by
  have hfilter : [q].filterMap Request.registered? = [] := by
    cases q with
    | register m => cases h
    | describe m => rfl
    | describeKnown m => rfl
  rw [registrations, List.filterMap_append, hfilter, List.append_nil, registrations]

/-- What is registered after a history are the registrations of the history. -/
theorem after_frame (c : Catalogue) (history : List Request) :
    ((ofCatalogue c).after history).catalogue = c ∧
      ((ofCatalogue c).after history).registered = registrations history := by
  induction history using List.reverseRecOn with
  | nil => exact ⟨rfl, rfl⟩
  | append_singleton history q ih =>
    rw [after_concat]
    rcases perform_cases ((ofCatalogue c).after history) q with
      ⟨m, rfl, hq⟩ | ⟨m, d, hasked, -⟩ | ⟨m, hasked, -⟩
    · rw [hq, (register_frame _ m).1, registered_register, registrations_register, ih.2]
      exact ⟨ih.1, rfl⟩
    · rw [(perform_frame hasked).1, (perform_frame hasked).2, registrations_of_asked history hasked]
      exact ih
    · rw [(perform_frame hasked).1, (perform_frame hasked).2, registrations_of_asked history hasked]
      exact ih

theorem gave_concat (c : Catalogue) (history : List Request) (q : Request) (model : String)
    (d : Descriptor) :
    Gave c (history ++ [q]) model d ↔ Gave c history model d ∨
      q.asked? = some model ∧ (answer c history q).descriptor? = some d := by
  constructor
  · rintro ⟨before, q', later, hsplit, hasked, hgiven⟩
    rcases List.eq_nil_or_concat later with rfl | ⟨later, last, rfl⟩
    · obtain ⟨rfl, hq⟩ := List.append_inj' hsplit rfl
      cases hq
      exact Or.inr ⟨hasked, hgiven⟩
    · rw [List.concat_eq_append, ← List.cons_append, ← List.append_assoc] at hsplit
      obtain ⟨rfl, -⟩ := List.append_inj' hsplit rfl
      exact Or.inl ⟨before, q', later, rfl, hasked, hgiven⟩
  · rintro (⟨before, q', later, rfl, hasked, hgiven⟩ | ⟨hasked, hgiven⟩)
    · exact ⟨before, q', later ++ [q], by rw [List.append_assoc]; rfl, hasked, hgiven⟩
    · exact ⟨history, q, [], rfl, hasked, hgiven⟩

/-- What is kept for a model after a history is the descriptor that the history gave. -/
theorem find?_after (c : Catalogue) (history : List Request) (model : String) (d : Descriptor) :
    ((ofCatalogue c).after history).described.find? model = some d ↔ Gave c history model d := by
  induction history using List.reverseRecOn with
  | nil =>
    constructor
    · intro h
      cases h
    · rintro ⟨before, q, later, hsplit, -⟩
      simp at hsplit
  | append_singleton history q ih =>
    rw [after_concat, find?_perform, Option.or_eq_some_iff, gave_concat, ← ih]
    constructor
    · rintro (h | ⟨-, h⟩)
      · exact Or.inl h
      · split at h
        next hasked => exact Or.inr ⟨hasked, h⟩
        next => cases h
    · rintro (h | ⟨hasked, hgiven⟩)
      · exact Or.inl h
      · rw [if_pos hasked]
        cases hfind : ((ofCatalogue c).after history).described.find? model with
        | none => exact Or.inr ⟨rfl, hgiven⟩
        | some kept =>
          have hkept := descriptor?_of_find? hfind hasked
          exact Or.inl (hkept.symm.trans hgiven)

/-! ## Histories that a model cannot tell apart -/

/-- Two registries between which the requests for the descriptor of a model make no difference. -/
structure AlikeFor (model : String) (r s : Registry) : Prop where
  catalogue : r.catalogue = s.catalogue
  registered : r.registered = s.registered
  described : r.described.find? model = s.described.find? model

theorem AlikeFor.answer_eq (h : AlikeFor model r s) (hq : q.asked? = some model) :
    (r.perform q).1 = (s.perform q).1 := by
  have hdescriptor : r.descriptor model = s.descriptor model := by
    rw [descriptor, descriptor, h.catalogue, h.registered, h.described]
  have hknows : r.knows model = s.knows model := by
    rw [knows, knows, Keyed.has, Keyed.has, h.registered, h.described]
  cases q with
  | register m => cases hq
  | describe m =>
    cases hq
    rw [answer_describe, answer_describe, hdescriptor]
  | describeKnown m =>
    cases hq
    rw [answer_describeKnown, answer_describeKnown, hdescriptor, hknows]

theorem concerns_eq_false (h : q.concerns model = false) :
    ∃ other, q.asked? = some other ∧ other ≠ model := by
  cases q with
  | register m => cases h
  | describe m => exact ⟨m, rfl, ne_of_beq_false h⟩
  | describeKnown m => exact ⟨m, rfl, ne_of_beq_false h⟩

/-- Requests for other descriptors change nothing for a model. -/
theorem AlikeFor.skip (h : AlikeFor model r s) (hq : q.concerns model = false) :
    AlikeFor model (r.perform q).2 s := by
  obtain ⟨other, hasked, hne⟩ := concerns_eq_false hq
  obtain ⟨hcatalogue, hregistered⟩ := perform_frame (r := r) hasked
  refine ⟨hcatalogue.trans h.catalogue, hregistered.trans h.registered, ?_⟩
  rw [find?_perform, hasked, if_neg (by simpa using hne), Option.or_none]
  exact h.described

/-- Requests that concern a model change the same for it in both registries. -/
theorem AlikeFor.perform (h : AlikeFor model r s) (hq : q.concerns model = true) :
    AlikeFor model (r.perform q).2 (s.perform q).2 := by
  cases hasked : q.asked? with
  | none =>
    cases q with
    | describe m => cases hasked
    | describeKnown m => cases hasked
    | register m =>
      obtain ⟨hr, hrd⟩ := register_frame r m
      obtain ⟨hs, hsd⟩ := register_frame s m
      refine ⟨(hr.trans h.catalogue).trans hs.symm, ?_, ?_⟩
      · show (r.register m).registered = (s.register m).registered
        rw [registered_register, registered_register, h.registered]
      · show (r.register m).described.find? model = (s.register m).described.find? model
        rw [hrd, hsd, h.described]
  | some asked =>
    have hsame : asked = model := by
      rw [Request.concerns, hasked] at hq
      exact beq_iff_eq.mp hq
    subst hsame
    obtain ⟨hr, hrr⟩ := perform_frame (r := r) hasked
    obtain ⟨hs, hsr⟩ := perform_frame (r := s) hasked
    refine ⟨(hr.trans h.catalogue).trans hs.symm, (hrr.trans h.registered).trans hsr.symm, ?_⟩
    rw [find?_perform, find?_perform, h.described, h.answer_eq hasked]

theorem AlikeFor.after (h : AlikeFor model r s) (history : List Request) :
    AlikeFor model (r.after history) (s.after (history.filter (·.concerns model))) := by
  induction history generalizing r s with
  | nil => exact h
  | cons q rest ih =>
    rw [List.filter_cons]
    split
    next hq => exact ih (h.perform hq)
    next hq => exact ih (h.skip (Bool.eq_false_iff.mpr hq))

theorem alikeFor_filter (c : Catalogue) (history : List Request) (model : String) :
    AlikeFor model ((ofCatalogue c).after history)
      ((ofCatalogue c).after (history.filter (·.concerns model))) :=
  AlikeFor.after ⟨rfl, rfl, rfl⟩ history

/-! ## The answers -/

theorem descriptor_of_gave {d : Descriptor} (h : Gave c history model d) :
    ((ofCatalogue c).after history).descriptor model = .ok d :=
  descriptor_of_find? ((find?_after c history model d).mpr h)

theorem not_kept_of_not_gave (h : ∀ d, ¬Gave c history model d) :
    ((ofCatalogue c).after history).described.find? model = none := by
  rw [Option.eq_none_iff_forall_ne_some]
  exact fun d hd => h d ((find?_after c history model d).mp hd)

/-- Until the descriptor of a model was given it is what the declarations yield. -/
theorem descriptor_of_not_gave (h : ∀ d, ¬Gave c history model d) :
    ((ofCatalogue c).after history).descriptor model =
      c.resolve (registrations history) model := by
  obtain ⟨hcatalogue, hregistered⟩ := after_frame c history
  rw [descriptor_of_find?_none (not_kept_of_not_gave h), hcatalogue, hregistered]

theorem knows_iff (c : Catalogue) (history : List Request) (model : String) :
    ((ofCatalogue c).after history).knows model = true ↔
      (∃ d, Gave c history model d) ∨ model ∈ registrations history := by
  rw [knows, Bool.or_eq_true, List.contains_iff_mem, (after_frame c history).2, Keyed.has,
    Option.isSome_iff_exists]
  simp only [find?_after]

/-- The descriptor of a model is settled by the registrations before it was given first. -/
theorem first_of_gave {d : Descriptor} (h : Gave c history model d) :
    ∃ before q later, history = before ++ q :: later ∧ q.asked? = some model ∧
      (∀ e, ¬Gave c before model e) ∧ (answer c before q).descriptor? = some d ∧
      c.resolve (registrations before) model = .ok d := by
  induction history using List.reverseRecOn with
  | nil =>
    obtain ⟨before, q, later, hsplit, -⟩ := h
    simp at hsplit
  | append_singleton history q ih =>
    by_cases hearlier : ∃ e, Gave c history model e
    · -- The last request was answered by what was given before.
      obtain ⟨e, he⟩ := hearlier
      have hlast := descriptor_of_gave ((gave_concat c history q model e).mpr (Or.inl he))
      rw [descriptor_of_gave h] at hlast
      cases hlast
      obtain ⟨before, q', later, rfl, hfirst⟩ := ih he
      exact ⟨before, q', later ++ [q], by rw [List.append_assoc]; rfl, hfirst⟩
    · rw [not_exists] at hearlier
      rcases (gave_concat c history q model d).mp h with h | ⟨hasked, hgiven⟩
      · exact absurd h (hearlier d)
      · refine ⟨history, q, [], rfl, hasked, hearlier, hgiven, ?_⟩
        rw [← descriptor_of_not_gave hearlier]
        exact descriptor_of_given hasked hgiven

/-- Where the descriptor of a model was given, every later request for it gives the same, and it is
what the declarations yield for the models that were registered before it was given first.  Until
then the answer is what they yield for the models registered so far; a request that needs the model
to be known gives none exactly if the model was neither registered nor described.  Two histories
with the same registrations and requests for the model get the same answers for it, and a request
that failed can be left out of any history. -/
theorem answers_of_history (c : Catalogue) (history : List Request) (model : String) :
    (∀ d, Gave c history model d →
      answer c history (.describe model) = .described (.ok d) ∧
      answer c history (.describeKnown model) = .known (.ok (some d)) ∧
      ∃ before q later, history = before ++ q :: later ∧ q.asked? = some model ∧
        (∀ e, ¬Gave c before model e) ∧ (answer c before q).descriptor? = some d ∧
        c.resolve (registrations before) model = .ok d) ∧
    ((∀ d, ¬Gave c history model d) →
      answer c history (.describe model) =
        .described (c.resolve (registrations history) model) ∧
      (model ∈ registrations history → answer c history (.describeKnown model) =
        .known ((c.resolve (registrations history) model).map some))) ∧
    (answer c history (.describeKnown model) = .known (.ok none) ↔
      model ∉ registrations history ∧ ∀ d, ¬Gave c history model d) ∧
    (∀ history', history.filter (·.concerns model) = history'.filter (·.concerns model) →
      ∀ q, q.asked? = some model → answer c history q = answer c history' q) ∧
    ∀ q, (answer c history q).failed = true →
      ∀ later next, answer c (history ++ q :: later) next = answer c (history ++ later) next := by
  have hknows := knows_iff c history model
  have hanswer : answer c history (.describe model) =
      .described (((ofCatalogue c).after history).descriptor model) := answer_describe _ _
  have hanswerKnown : answer c history (.describeKnown model) = _ := answer_describeKnown _ _
  refine ⟨?_, ?_, ?_, ?_, ?_⟩
  · intro d hgave
    rw [hanswer, hanswerKnown, hknows.mpr (Or.inl ⟨d, hgave⟩), descriptor_of_gave hgave]
    exact ⟨rfl, rfl, first_of_gave hgave⟩
  · intro hnot
    rw [hanswer, hanswerKnown, descriptor_of_not_gave hnot]
    exact ⟨rfl, fun hmem => by rw [if_pos (hknows.mpr (Or.inr hmem))]⟩
  · rw [hanswerKnown]
    constructor
    · intro hnone
      by_cases hknown : ((ofCatalogue c).after history).knows model = true
      · rw [if_pos hknown] at hnone
        cases hd : ((ofCatalogue c).after history).descriptor model with
        | ok d =>
          rw [hd] at hnone
          cases hnone
        | error e =>
          rw [hd] at hnone
          cases hnone
      · rw [hknows, not_or, not_exists] at hknown
        exact hknown.symm
    · rintro ⟨hmem, hnot⟩
      have hunknown : ¬((ofCatalogue c).after history).knows model = true := by
        rw [hknows, not_or, not_exists]
        exact ⟨hnot, hmem⟩
      rw [if_neg hunknown]
  · intro history' hsame q hq
    have halike := alikeFor_filter c history model
    have halike' := alikeFor_filter c history' model
    rw [hsame] at halike
    exact (halike.answer_eq hq).trans (halike'.answer_eq hq).symm
  · intro q hfailed later next
    have hsame := perform_of_failed hfailed
    rw [answer, answer, after_append, after_append]
    show (((((ofCatalogue c).after history).perform q).2.after later).perform next).1 = _
    rw [hsame]

/-! ### A registration that comes too late -/

/-- Authors ask for a foreign key in the table of their books, and tags cannot be told apart. -/
def shelf : Catalogue where
  models := [
    ⟨"Author", "Authors", "id", [⟨"id", .column .i64 (some "id") none, false⟩,
      ⟨"books", .hasMany "Book" (some "writer_id") none, false⟩]⟩,
    ⟨"Book", "Books", "id", [⟨"id", .column .i64 (some "id") none, false⟩]⟩,
    ⟨"Tag", "Tags", "id", []⟩]

def plainBook : Descriptor :=
  ⟨"Book", "Books", "id", [⟨"id", some "id", .i64, none, true⟩], [], []⟩

/-- Books are described, and only then are their authors registered. -/
def lateAuthors : List Request :=
  [.describe "Book", .register "Author"]

theorem answers_of_history_lateAuthors :
    Gave shelf lateAuthors "Book" plainBook ∧
      (∃ d, shelf.resolve (registrations lateAuthors) "Book" = .ok d ∧ d ≠ plainBook) ∧
      answer shelf lateAuthors (.describe "Book") = .described (.ok plainBook) ∧
      answer shelf lateAuthors (.describeKnown "Tag") = .known (.ok none) ∧
      answer shelf (lateAuthors ++ [.describe "Tag"]) (.describe "Book") =
        answer shelf lateAuthors (.describe "Book") := by
  have hgave : Gave shelf lateAuthors "Book" plainBook :=
    ⟨[], .describe "Book", [.register "Author"], rfl, rfl, by cbv⟩
  have hfailed : (answer shelf lateAuthors (.describe "Tag")).failed = true := by cbv
  have hnever : ∀ d, ¬Gave shelf lateAuthors "Tag" d := by
    intro d h
    have hknown := (knows_iff shelf lateAuthors "Tag").mpr (Or.inl ⟨d, h⟩)
    have hunknown : ((ofCatalogue shelf).after lateAuthors).knows "Tag" = false := by cbv
    rw [hunknown] at hknown
    cases hknown
  obtain ⟨hgiven, -⟩ := answers_of_history shelf lateAuthors "Book"
  obtain ⟨-, -, hnone, -, hfailure⟩ := answers_of_history shelf lateAuthors "Tag"
  refine ⟨hgave, ?_, (hgiven plainBook hgave).1, hnone.mpr ⟨by decide, hnever⟩, ?_⟩
  · refine ⟨{ plainBook with columns := plainBook.columns ++
      [⟨"writer_id", none, .i64, some ⟨"Author", "Authors", "id"⟩, false⟩] }, by cbv, by decide⟩
  · exact hfailure (.describe "Tag") hfailed [] (.describe "Book")

end Registry
end RowGraph
