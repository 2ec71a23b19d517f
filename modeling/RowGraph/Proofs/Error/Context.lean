import RowGraph.Error.Basic

/-!
Errors in many contexts.

A context puts one fault in front of a chain of faults and leaves the chain behind it as it is.  So
what a sequence of contexts does can be read off the chain: the message says the contexts from the
last to the first and then the error, no kind of the error is lost, and a kind that is new came with
a context that was given away.  Whether an error is ad hoc is asked of the front of the chain alone,
and there the last context stands.
-/

namespace RowGraph

namespace Fault

/-- A part of a chain can be put into words first. -/
theorem chainText_append (texts : List String) {inner : List String} (h : inner ≠ []) :
    chainText (texts ++ inner) = chainText (texts ++ [chainText inner]) := by
  by_cases htexts : texts = []
  · rw [htexts, List.nil_append, List.nil_append, chainText, chainText,
      String.intercalate_singleton]
  · rw [chainText, chainText, String.intercalate_append_of_ne_nil htexts h,
      String.intercalate_append_of_ne_nil htexts (List.cons_ne_nil _ _),
      String.intercalate_singleton, chainText]

end Fault

namespace Error

/-! ## One context -/

/-- The error that a context was made from, which may itself be wrapped in contexts. -/
def Context.error : Context → Error
  | given e => e
  | lent e => e

/-- Given away or lent, a context says what its outermost fault says. -/
theorem Context.message_fault (context : Context) :
    context.fault.message = context.error.outermost.message := by
  cases context <;> rfl

/-- A context brings a kind with it only if it was given away: one that was lent is ad hoc. -/
theorem Context.kind_fault_iff {context : Context} {kind : FaultKind} (hk : kind ≠ .adhoc) :
    context.fault.kind = kind ↔ ∃ added, context = .given added ∧ added.outermost.kind = kind := by
  cases context with
  | given e => simp [fault]
  | lent e =>
    have hlent : (lent e).fault.kind = .adhoc := rfl
    simp [hlent, hk.symm]

theorem Context.kind_fault_eq_adhoc_iff {context : Context} :
    context.fault.kind = .adhoc ↔
      (∃ shared, context = .lent shared) ∨ context.error.is .adhoc = true := by
  cases context with
  | given e => simp [fault, error, is]
  | lent e =>
    have hlent : (lent e).fault.kind = .adhoc := rfl
    simp [hlent]

/-- Of a kind other than ad hoc is an error that has such a fault anywhere in its chain. -/
theorem is_eq_true_iff {e : Error} {kind : FaultKind} (hk : kind ≠ .adhoc) :
    e.is kind = true ↔ ∃ fault ∈ e.faults, fault.kind = kind := by
  cases kind <;> simp_all [is]

theorem is_adhoc_within (e : Error) (context : Context) :
    (e.within context).is .adhoc = true ↔ context.fault.kind = .adhoc := by
  simp [is, within]

/-! ## Many contexts -/

variable (e : Error) (contexts : List Context)

/-- Each context adds a fault of its own and drops nothing. -/
theorem faults_foldl_within :
    (contexts.foldl within e).faults = (contexts.map Context.fault).reverse ++ e.faults := by
  induction contexts generalizing e with
  | nil => rfl
  | cons context rest ih =>
    rw [List.foldl_cons, ih, faults_within, List.map_cons, List.reverse_cons, List.append_assoc,
      List.singleton_append]

theorem message_foldl_within :
    (contexts.foldl within e).message =
      Fault.chainText ((contexts.map (·.error.outermost.message)).reverse ++ [e.message]) := by
  have htexts : (contexts.map Context.fault).map Fault.message =
      contexts.map (·.error.outermost.message) := by
    rw [List.map_map]
    exact List.map_congr_left fun context _ => context.message_fault
  rw [message, faults_foldl_within, List.map_append, List.map_reverse, htexts,
    Fault.chainText_append _ (by simp [faults])]
  rfl

theorem is_foldl_within_iff {kind : FaultKind} (hk : kind ≠ .adhoc) :
    (contexts.foldl within e).is kind = true ↔
      e.is kind = true ∨ ∃ added, .given added ∈ contexts ∧ added.outermost.kind = kind := by
  rw [is_eq_true_iff hk, is_eq_true_iff hk, faults_foldl_within]
  simp only [List.mem_append, List.mem_reverse, or_and_right, exists_or]
  rw [or_comm]
  refine or_congr_right ?_
  constructor
  · rintro ⟨fault, hfault, hkind⟩
    obtain ⟨context, hcontext, rfl⟩ := List.mem_map.mp hfault
    obtain ⟨added, rfl, hadded⟩ := (Context.kind_fault_iff hk).mp hkind
    exact ⟨added, hcontext, hadded⟩
  · rintro ⟨added, hadded, hkind⟩
    exact ⟨added.outermost, List.mem_map.mpr ⟨.given added, hadded, rfl⟩, hkind⟩

/-- Adding contexts never loses the error that they are put around.  Its chain stays behind theirs;
the message is the texts of the contexts' outermost faults, the last context first, and then the
message of the error; the result is of a kind, ad hoc apart, exactly when the error is or a context
that was given away has an outermost fault of it; and it is ad hoc exactly when the last context was
lent or is ad hoc itself. -/
theorem foldl_within_keeps :
    e.faults <:+ (contexts.foldl within e).faults ∧
    (contexts.foldl within e).message =
      Fault.chainText ((contexts.map (·.error.outermost.message)).reverse ++ [e.message]) ∧
    (contexts ≠ [] → (contexts.foldl within e).message =
      Fault.chainText (contexts.map (·.error.outermost.message)).reverse ++ ": " ++ e.message) ∧
    (∀ kind, kind ≠ .adhoc →
      (e.is kind = true → (contexts.foldl within e).is kind = true) ∧
      ((contexts.foldl within e).is kind = true ↔
        e.is kind = true ∨ ∃ added, .given added ∈ contexts ∧ added.outermost.kind = kind)) ∧
    ∀ last, contexts.getLast? = some last →
      ((contexts.foldl within e).is .adhoc = true ↔
        (∃ shared, last = .lent shared) ∨ last.error.is .adhoc = true) := by
  refine ⟨?_, message_foldl_within e contexts, ?_, ?_, ?_⟩
  · rw [faults_foldl_within]
    exact List.suffix_append _ _
  · intro hne
    have htexts : (contexts.map (·.error.outermost.message)).reverse ≠ [] := by simpa using hne
    rw [message_foldl_within, Fault.chainText,
      String.intercalate_append_of_ne_nil htexts (List.cons_ne_nil _ _),
      String.intercalate_singleton, Fault.chainText]
  · intro kind hk
    have hiff := is_foldl_within_iff e contexts hk
    exact ⟨fun h => hiff.mpr (Or.inl h), hiff⟩
  · intro last hlast
    obtain ⟨before, rfl⟩ := List.getLast?_eq_some_iff.mp hlast
    rw [List.foldl_append, List.foldl_cons, List.foldl_nil, is_adhoc_within,
      Context.kind_fault_eq_adhoc_iff]

/-! ### A chain given away and a chain lent -/

/-- A model without a key, met while it was described. -/
def keylessPlayer : Error :=
  (invalidSchema (.missingPrimaryKey "Player")).within (.given (ofText "describing the model"))

/-- A failed conversion, given away with the failed join behind it, and then an error of the
executor that is still held elsewhere and has a cause as well. -/
def loadingContexts : List Context :=
  [.given ((ambiguousCondition (.unknownParameter "p")).within
      (.given (typeConversion .null "String"))),
    .lent ((ofText "retrying").within (.given (ofFault (.driver "disk full" ["no space"]))))]

theorem foldl_within_keeps_keylessPlayer :
    loadingContexts ≠ [] ∧
    (loadingContexts.foldl within keylessPlayer).message =
      Fault.chainText ["disk full: no space", "cannot convert Null to String"] ++ ": " ++
        keylessPlayer.message ∧
    (loadingContexts.foldl within keylessPlayer).is .invalidSchema = true ∧
    (loadingContexts.foldl within keylessPlayer).is .typeConversion = true ∧
    (loadingContexts.foldl within keylessPlayer).is .driver = false ∧
    (loadingContexts.foldl within keylessPlayer).is .ambiguousCondition = false ∧
    (loadingContexts.foldl within keylessPlayer).is .adhoc = true := by
  obtain ⟨-, -, hmessage, hkinds, hadhoc⟩ := foldl_within_keeps keylessPlayer loadingContexts
  have hne : loadingContexts ≠ [] := List.cons_ne_nil _ _
  refine ⟨hne, hmessage hne, ?_, ?_, ?_, ?_, ?_⟩
  · exact (hkinds .invalidSchema (by decide)).1 (by decide)
  · exact (hkinds .typeConversion (by decide)).2.mpr (Or.inr ⟨_, List.mem_cons_self, rfl⟩)
  · rw [← Bool.not_eq_true, (hkinds .driver (by decide)).2]
    simp [loadingContexts, keylessPlayer, is, faults, within, invalidSchema, ofText, adhoc, ofFault,
      Context.fault, Fault.kind, typeConversion]
  · rw [← Bool.not_eq_true, (hkinds .ambiguousCondition (by decide)).2]
    simp [loadingContexts, keylessPlayer, is, faults, within, invalidSchema, ofText, adhoc, ofFault,
      Context.fault, Fault.kind, typeConversion]
  · exact (hadhoc _ rfl).mpr (Or.inl ⟨_, rfl⟩)

end Error
end RowGraph
