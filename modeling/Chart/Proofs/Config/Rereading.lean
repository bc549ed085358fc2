import Chart.Config.Form
import Chart.Proofs.Json.Assembling

set_option autoImplicit false

/-!
What is read back from the written form of a configuration. Both flags come back as they were, and
the interval in whole milliseconds, at most as many as fit a word of 64 bits; the three options may
stand in any order. Main statement: a configuration is read back unchanged exactly if its interval
is such a number of milliseconds, and that holds of every configuration that was read from a value
or from a text.
-/

namespace Chart.StateConfig

/-- The options of a configuration under the names that they are written under. -/
def options (config : StateConfig) : List (String × Value) :=
  [("timer", .bool config.timer), ("interval", .int config.writtenMillis),
    ("auto_transition", .bool config.autoTransition)]

variable {config : StateConfig} {fields : List (String × Value)}

/-! ### Whole milliseconds -/

private theorem writtenMillis_lt (config : StateConfig) : config.writtenMillis < Word.limit :=
  Nat.lt_of_le_of_lt (Nat.min_le_right _ _) (by decide)

/-- The configuration with its interval cut down to what the written form can hold. -/
def kept (config : StateConfig) : StateConfig :=
  { config with interval := .ofMillis config.writtenMillis config.writtenMillis_lt }

/-- The interval is a whole number of milliseconds, and that number fits a word of 64 bits. -/
def Whole (config : StateConfig) : Prop :=
  ∃ millis ≤ Word.greatest, config.interval.nanos = millis * nanosPerMilli

private theorem kept_eq_iff (config : StateConfig) : config.kept = config ↔ config.Whole := by
  constructor
  · intro same
    refine ⟨config.writtenMillis, Nat.min_le_right _ _, ?_⟩
    exact congrArg (fun kept => kept.interval.nanos) same.symm
  · rintro ⟨millis, fits, whole⟩
    obtain ⟨timer, ⟨nanos, inRange⟩, autoTransition⟩ := config
    obtain rfl : nanos = millis * nanosPerMilli := whole
    have written : min (millis * nanosPerMilli / nanosPerMilli) Word.greatest = millis := by
      rw [Nat.mul_div_cancel _ (by decide), Nat.min_eq_left fits]
    simp only [kept, writtenMillis, Duration.millis, Duration.ofMillis, written]

/-! ### Reading the written form -/

private theorem interval?_writtenMillis (config : StateConfig) :
    interval? (.int config.writtenMillis) = some config.kept.interval := by
  have fits := config.writtenMillis_lt
  have word : (Value.int config.writtenMillis).asNat? = some config.writtenMillis := if_pos fits
  rw [interval?, word]
  exact dif_pos fits

private theorem names_of_perm (order : fields.Perm config.options) :
    (fields.map Prod.fst).Perm fieldNames :=
  order.map Prod.fst

private theorem distinct_of_perm (order : fields.Perm config.options) :
    (fields.map Prod.fst).Nodup :=
  (names_of_perm order).nodup_iff.mpr (by decide)

private theorem ofValue?_of_perm (order : fields.Perm config.options) :
    ofValue? (.object fields) = some config.kept := by
  have held (field : String × Value) (written : field ∈ config.options) :
      Dictionary.find? fields field.1 = some field.2 :=
    Dictionary.find?_of_mem (distinct_of_perm order) (order.mem_iff.mpr written)
  simp only [options, List.forall_mem_cons] at held
  obtain ⟨timer, interval, autoTransition, -⟩ := held
  rw [ofValue?, timer, interval, autoTransition]
  simp only [ofOptions?, option, Value.asBool?, interval?_writtenMillis]
  rfl

private theorem ofValue?_ofList (fields : List (String × Value)) :
    ofValue? (.object (Dictionary.ofList fields)) = ofValue? (.object fields.reverse) := by
  simp only [ofValue?, Dictionary.find?_ofList]

private theorem knownFields?_of_fields? {documents : List (Option String × Json.Document)}
    (read : Json.Document.fields? nestingLimit documents = some fields)
    (known : ∀ field ∈ fields, field.1 ∈ fieldNames) (distinct : (fields.map Prod.fst).Nodup) :
    knownFields? documents = some fields := by
  induction documents generalizing fields with
  | nil => exact read
  | cons first rest ih =>
      obtain ⟨key, document⟩ := first
      simp only [Json.Document.fields?, Option.bind_eq_bind, Option.bind_eq_some_iff] at read
      obtain ⟨name, rfl, value, one, others, behind, same⟩ := read
      obtain rfl := Option.some.inj same
      obtain ⟨named, known⟩ := List.forall_mem_cons.mp known
      obtain ⟨fresh, distinct⟩ := List.nodup_cons.mp distinct
      have single : others.any (fun other => other.1 == name) = false := by
        rw [List.any_eq_false]
        intro other held repeated
        exact fresh (List.mem_map.mpr ⟨other, held, eq_of_beq repeated⟩)
      simp only [knownFields?, ih behind known distinct, Option.bind_eq_bind, Option.bind_some]
      rw [List.contains_eq_mem, decide_eq_true named, single, one]
      rfl

private theorem plain_options (config : StateConfig) :
    ∀ field ∈ config.options, Json.Plain nestingLimit field.2 := by
  have least : Word.leastSigned ≤ (config.writtenMillis : Int) := by
    unfold Word.leastSigned
    omega
  have fits : (config.writtenMillis : Int) < Word.limit :=
    Int.ofNat_lt.mpr config.writtenMillis_lt
  simp only [options, List.forall_mem_cons]
  exact ⟨trivial, ⟨least, fits⟩, trivial, nofun⟩

private theorem ofText?_of_perm (order : fields.Perm config.options) :
    ofText? (Value.object fields).write = some config.kept := by
  have plain : Json.PlainFields nestingLimit fields :=
    Json.plainFields_of_forall fun field held =>
      config.plain_options field (order.mem_iff.mp held)
  obtain ⟨documents, written, read⟩ := Json.exists_fieldDocuments fields plain
  have document : Json.document? (.object fields) = some (.object documents) := by
    rw [Json.document?, written, Option.map_some]
  have known : knownFields? documents = some fields :=
    knownFields?_of_fields? read
      (fun field held => (names_of_perm order).mem_iff.mp (List.mem_map_of_mem held))
      (distinct_of_perm order)
  have reversed : fields.reverse.Perm config.options := (List.reverse_perm fields).trans order
  simp only [ofText?, Json.ofText?_write document, ofDocument?, known, Option.bind_eq_bind,
    Option.bind_some]
  rw [ofValue?_ofList, ofValue?_of_perm reversed]

/-! ### Configurations that were read -/

private theorem whole_standard : standard.Whole :=
  ⟨1000, by decide, rfl⟩

private theorem whole_of_interval? {value : Value} {duration : Duration}
    (read : interval? value = some duration) :
    ∃ millis ≤ Word.greatest, duration.nanos = millis * nanosPerMilli := by
  unfold interval? at read
  split at read
  next millis _ =>
    split at read
    next fits =>
      obtain rfl := Option.some.inj read
      exact ⟨millis, Nat.le_of_lt_succ fits, rfl⟩
    next => cases read
  next => cases read

private theorem whole_of_ofOptions? {timer interval autoTransition : Option Value}
    (read : ofOptions? timer interval autoTransition = some config) : config.Whole := by
  simp only [ofOptions?, Option.bind_eq_bind, Option.bind_eq_some_iff] at read
  obtain ⟨_, _, duration, found, _, _, same⟩ := read
  obtain rfl := Option.some.inj same
  cases interval with
  | none =>
      cases found
      exact whole_standard
  | some value => exact whole_of_interval? found

private theorem whole_of_ofValue? {value : Value} (read : ofValue? value = some config) :
    config.Whole := by
  unfold ofValue? at read
  split at read
  next => exact whole_of_ofOptions? read
  next =>
    split at read
    next => exact whole_of_ofOptions? read
    next => cases read
  next => cases read

private theorem whole_of_ofText? {text : String} (read : ofText? text = some config) :
    config.Whole := by
  simp only [ofText?, Option.bind_eq_bind, Option.bind_eq_some_iff] at read
  obtain ⟨document, -, read⟩ := read
  unfold ofDocument? at read
  split at read
  next =>
    obtain ⟨_, _, found⟩ := Option.bind_eq_some_iff.mp read
    exact whole_of_ofValue? found
  next =>
    obtain ⟨_, _, found⟩ := Option.bind_eq_some_iff.mp read
    exact whole_of_ofValue? found
  next => cases read

/-! ### Round trips -/

structure Survives (config back : StateConfig) : Prop where
  timer : back.timer = config.timer
  autoTransition : back.autoTransition = config.autoTransition
  interval : back.interval.nanos =
    min (config.interval.nanos / nanosPerMilli) Word.greatest * nanosPerMilli
  unchanged_iff : back = config ↔
    ∃ millis ≤ Word.greatest, config.interval.nanos = millis * nanosPerMilli

private theorem survives_kept (config : StateConfig) : Survives config config.kept where
  timer := rfl
  autoTransition := rfl
  interval := rfl
  unchanged_iff := config.kept_eq_iff

/-- Reading the written form of a configuration gives `back`: from its value, and from its text
with the options in any order. -/
structure Rereads (config back : StateConfig) : Prop where
  value : ofValue? config.toValue = some back
  text : ∀ fields : List (String × Value), fields.Perm config.options →
    ofText? (Value.object fields).write = some back

private theorem rereads_kept (config : StateConfig) : Rereads config config.kept where
  value := ofValue?_of_perm (List.reverse_perm config.options)
  text := fun _ order => ofText?_of_perm order

private theorem rereads_of_whole (whole : config.Whole) : Rereads config config := by
  have reread := config.rereads_kept
  rwa [config.kept_eq_iff.mpr whole] at reread

def rewritten? (value : Value) : Option Value :=
  (ofValue? value).map toValue

def rewrittenText? (text : String) : Option String :=
  (ofText? text).map fun config => config.toValue.write

private theorem rewritten?_idempotent (value : Value) :
    (rewritten? value).bind rewritten? = rewritten? value := by
  cases read : ofValue? value with
  | none => simp [rewritten?, read]
  | some config =>
      have again := (rereads_of_whole (whole_of_ofValue? read)).value
      simp [rewritten?, read, again]

private theorem rewrittenText?_idempotent (text : String) :
    (rewrittenText? text).bind rewrittenText? = rewrittenText? text := by
  cases read : ofText? text with
  | none => simp [rewrittenText?, read]
  | some config =>
      have again : ofText? config.toValue.write = some config :=
        (rereads_of_whole (whole_of_ofText? read)).text _ (List.reverse_perm config.options)
      simp [rewrittenText?, read, again]

/-- The written form brings back the flags and the interval in whole milliseconds, as many as fit
a word; what was read once is brought back as it is, so that writing it again changes nothing. -/
theorem written_form_survives :
    (∀ config : StateConfig, ∃ back, Survives config back ∧ Rereads config back) ∧
      (∀ config : StateConfig,
        (∃ value, ofValue? value = some config) ∨ (∃ text, ofText? text = some config) →
          Rereads config config) ∧
      (∀ value, (rewritten? value).bind rewritten? = rewritten? value) ∧
      (∀ text, (rewrittenText? text).bind rewrittenText? = rewrittenText? text) := by
  refine ⟨fun config => ⟨config.kept, config.survives_kept, config.rereads_kept⟩, ?_,
    rewritten?_idempotent, rewrittenText?_idempotent⟩
  rintro config (⟨value, read⟩ | ⟨text, read⟩)
  · exact rereads_of_whole (whole_of_ofValue? read)
  · exact rereads_of_whole (whole_of_ofText? read)

def brisk : StateConfig :=
  ⟨true, ⟨250000000, by decide⟩, false⟩

/-- Timed and automatic, with an interval one millisecond longer than any that can be written. -/
def overlong : StateConfig :=
  ⟨true, ⟨18446744073709551616000000, by decide⟩, true⟩

theorem brisk_and_overlong_survive :
    ofValue? (.list [.bool true, .int 250]) = some brisk ∧ Rereads brisk brisk ∧
      ∃ back, Survives overlong back ∧ Rereads overlong back ∧
        back.interval.nanos = 18446744073709551615000000 := by
  have read : ofValue? (.list [.bool true, .int 250]) = some brisk := by decide
  obtain ⟨back, survives, rereads⟩ := written_form_survives.1 overlong
  exact ⟨read, written_form_survives.2.1 brisk (Or.inl ⟨_, read⟩), back, survives, rereads,
    survives.interval.trans (by decide)⟩

end Chart.StateConfig
