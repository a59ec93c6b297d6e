import ClaimStore.Proofs.Config.Layers

/-!
Options that are written and read back.

A document of options stands for itself, without any defaults below it. Every value that is set is
read as it was written, and what is not in the document is left unset, as it was.
-/
namespace ClaimStore

open Setting

variable {options : Options} {policy : RetryPolicy}

/-- A written policy is read back, whichever of its values are set. -/
theorem toPolicy_document (writable : policy.Writable) :
    (table policy.document).toPolicy = .ok policy := by
  have limits := fun limit same => toLimit_integer (writable.limit limit same)
  cases policy with
  | none => rfl
  | fixedDelay interval limit =>
      simp only [RetryPolicy.limit] at limits
      cases limit <;>
        simp [RetryPolicy.document, Limit.entry, lookup, toPolicy, toPolicyKind, kindOfText, under,
          policyOfEntries, PolicyFields.addEntry, toInterval, orAbsent, required, bind, Except.bind,
          Except.map, pure, Except.pure, limits]
  | exponential initial factor limit longest =>
      have number := toFactor_toDouble (writable.factor _ _ _ _ rfl)
      simp only [RetryPolicy.limit] at limits
      cases limit <;> cases longest <;>
        simp [RetryPolicy.document, Limit.entry, Duration.entry, lookup, toPolicy, toPolicyKind,
          kindOfText, under, policyOfEntries, PolicyFields.addEntry, toInterval, orAbsent, required,
          bind, Except.bind, Except.map, pure, Except.pure, limits, number]

theorem toOptions_document (writable : options.Writable) :
    (table options.document).toOptions = .ok options := by
  have duration : toDuration (.text options.commitTimeout.text) = .ok options.commitTimeout :=
    durationOfText_text _
  have policy := toPolicy_document writable.policy
  have limits := fun limit same => toLimit_integer (writable.limit limit same)
  obtain ⟨timeout, loadPolicy, batchLimit⟩ := options
  cases batchLimit <;>
    simp [Options.document, Limit.entry, toOptions, OptionFields.addEntry, duration, policy, limits,
      under, orAbsent, required, bind, Except.bind, Except.map, pure, Except.pure]

/-- Options whose numbers fit into a document can be written, and are read from what is written. -/
theorem options_read_back (writable : options.Writable) :
    ∃ text, options.text? = some text ∧ Options.ofText? text = some options := by
  obtain ⟨text, written, read⟩ := writable.parse?_text
  refine ⟨text, written, ?_⟩
  rw [Options.ofText?, read, Option.bind_some, toOptions_document writable]
  rfl

/-- Options with growing pauses that have neither an end nor a greatest one. -/
def Options.growing : Options :=
  ⟨.ofMillis 90061001, .exponential (.ofMillis 1) ⟨0x3dcccccd⟩ none none, some ⟨7, by decide⟩⟩

theorem options_read_back_growing :
    Options.growing.Writable ∧
      ∃ text, Options.growing.text? = some text ∧ Options.ofText? text = some Options.growing := by
  have writable : Options.growing.Writable := by
    refine ⟨⟨?_, ?_⟩, ?_⟩
    · rintro _ ⟨⟩
    · rintro _ _ _ _ ⟨⟩
      decide
    · rintro _ ⟨⟩
      decide
  exact ⟨writable, options_read_back writable⟩

end ClaimStore
