import DecodePipeline.Config.Basic
import DecodePipeline.Proofs.Decimal
import DecodePipeline.Proofs.Run.Lifecycle
import DecodePipeline.Proofs.Text.Blank
import DecodePipeline.Run.Session

/-!
What a configuration comes to when the environment and the command line are laid over it, value by value;
and that the check of a configuration is the check of the settings it gives, but for the decoder, so what
passes it is not refused when the run is started.
-/

namespace DecodePipeline

namespace Config

variable {α : Type} {commandLine : Option α} {environment : α → Prop} {base v v' : α}

/-! ## The layers -/

/-- The value that the highest layer gives: the command line before the environment, and both before the
base. -/
inductive Prevails (commandLine : Option α) (environment : α → Prop) (base : α) : α → Prop
  | commandLine {v : α} (given : commandLine = some v) : Prevails commandLine environment base v
  | environment {v : α} (silent : commandLine = none) (given : environment v) :
      Prevails commandLine environment base v
  | base (silent : commandLine = none) (unset : ∀ v, ¬ environment v) :
      Prevails commandLine environment base base

theorem Prevails.unique (single : ∀ v v', environment v → environment v' → v = v')
    (first : Prevails commandLine environment base v) (second : Prevails commandLine environment base v') :
    v = v' := by
  cases first with
  | commandLine given =>
      cases second with
      | commandLine given' => exact Option.some.inj (given.symm.trans given')
      | environment silent | base silent => simp [silent] at given
  | environment silent given =>
      cases second with
      | commandLine given' => simp [silent] at given'
      | environment _ given' => exact single v v' given given'
      | base _ unset => exact absurd given (unset v)
  | base silent unset =>
      cases second with
      | commandLine given' => simp [silent] at given'
      | environment _ given' => exact absurd given' (unset v')
      | base => rfl

/-- The variable is set, and not to an empty text. -/
def Sets (env : Environment) (name value : String) : Prop := env name = some value ∧ value ≠ ""

/-- The text is a number of workers: a numeral that 64 bits can hold, perhaps with a plus sign in front of
it and with white space around that. -/
def Counts (text : String) (n : Nat) : Prop :=
  ∃ core numeral, Text.Trims text.toList core ∧ (core = numeral ∨ core = '+' :: numeral) ∧
    numeral ≠ [] ∧ (∀ c ∈ numeral, Decimal.isDigit c) ∧ Decimal.value numeral = n ∧ n < 2 ^ 64

def SetsWorkers (env : Environment) (n : Nat) : Prop := ∃ text, Sets env workersVariable text ∧ Counts text n

/-- What is laid over the base, and that nothing else of it changes. -/
structure Layered (base : Config) (env : Environment) (o : Overrides) (c : Config) : Prop where
  decoder : Prevails o.decoder (Sets env decoderVariable) base.decoder c.decoder
  outputRoot : Prevails o.output (Sets env outputVariable) base.outputRoot c.outputRoot
  workers : Prevails o.workers (SetsWorkers env) base.workers c.workers
  optionsFile : Prevails (o.options.map some) (fun _ => False) base.optionsFile c.optionsFile
  pollIntervalSeconds :
    Prevails (o.poll.map some) (fun _ => False) base.pollIntervalSeconds c.pollIntervalSeconds
  others : c =
    { base with
      decoder := c.decoder, outputRoot := c.outputRoot, workers := c.workers
      optionsFile := c.optionsFile, pollIntervalSeconds := c.pollIntervalSeconds }

variable {env : Environment} {name text : String} {n : Nat} {o : Overrides} {c c' : Config}

theorem value?_eq_some_iff : env.value? name = some text ↔ Sets env name text := by
  simp [Environment.value?, Option.filter_eq_some_iff, Sets]

theorem readWorkers?_eq_some_iff : readWorkers? text = some n ↔ Counts text n := by
  simp only [readWorkers?, Decimal.readBelow?_eq_some_iff, Decimal.read?_eq_some_iff, Counts]
  constructor
  · rintro ⟨numeral, core, ⟨filled, digits, value⟩, below⟩
    exact ⟨_, numeral, Text.trims_trimChars _, core, filled, digits, value, below⟩
  · rintro ⟨core, numeral, trims, form, filled, digits, value, below⟩
    rw [Text.trimChars_eq trims]
    exact ⟨numeral, form, ⟨filled, digits, value⟩, below⟩

theorem Sets.unique {text' : String} (first : Sets env name text) (second : Sets env name text') :
    text = text' :=
  Option.some.inj (first.1.symm.trans second.1)

theorem SetsWorkers.unique {n' : Nat} (first : SetsWorkers env n) (second : SetsWorkers env n') : n = n' := by
  obtain ⟨text, sets, counts⟩ := first
  obtain ⟨text', sets', counts'⟩ := second
  obtain rfl := sets.unique sets'
  exact Option.some.inj
    ((readWorkers?_eq_some_iff.mpr counts).symm.trans (readWorkers?_eq_some_iff.mpr counts'))

theorem Layered.unique {base : Config} (first : Layered base env o c) (second : Layered base env o c') :
    c = c' := by
  have decoder := first.decoder.unique (fun _ _ => Sets.unique) second.decoder
  have outputRoot := first.outputRoot.unique (fun _ _ => Sets.unique) second.outputRoot
  have workers := first.workers.unique (fun _ _ => SetsWorkers.unique) second.workers
  have optionsFile := first.optionsFile.unique (fun _ _ => False.elim) second.optionsFile
  have poll := first.pollIntervalSeconds.unique (fun _ _ => False.elim) second.pollIntervalSeconds
  rw [first.others, second.others, decoder, outputRoot, workers, optionsFile, poll]

/-- A layer that may be silent, over one that reads the environment. -/
theorem prevails_getD {lookup : Option α} (reads : ∀ v, lookup = some v ↔ environment v) :
    Prevails commandLine environment base (commandLine.getD (lookup.getD base)) := by
  cases commandLine with
  | some v => exact .commandLine rfl
  | none =>
      cases lookup with
      | some v => exact .environment rfl ((reads v).mp rfl)
      | none => exact .base rfl fun v given => by simpa using (reads v).mpr given

theorem prevails_orElse {commandLine base : Option α} :
    Prevails (commandLine.map some) (fun _ => False) base (commandLine <|> base) := by
  cases commandLine with
  | some v => exact .commandLine rfl
  | none => exact .base rfl fun _ => id

/-- The number of workers that the environment gives. -/
def workers? (env : Environment) : Option Nat := (env.value? workersVariable).bind readWorkers?

theorem workers?_eq_some_iff : workers? env = some n ↔ SetsWorkers env n := by
  simp only [workers?, Option.bind_eq_some_iff, value?_eq_some_iff, readWorkers?_eq_some_iff, SetsWorkers]

theorem withEnvironment_of_readable (base : Config)
    (readable : ∀ text, Sets env workersVariable text → ∃ n, Counts text n) :
    base.withEnvironment env =
      ({ base.withPaths env with workers := (workers? env).getD base.workers }, .ok ()) := by
  simp only [withEnvironment, workers?]
  cases set : env.value? workersVariable with
  | none => rfl
  | some text =>
      obtain ⟨n, counts⟩ := readable text (value?_eq_some_iff.mp set)
      simp only [Option.bind_some, readWorkers?_eq_some_iff.mpr counts, Option.getD_some]

theorem layered_of_readable (base : Config) (o : Overrides)
    (readable : ∀ text, Sets env workersVariable text → ∃ n, Counts text n) :
    Layered base env o ((base.withEnvironment env).1.withOverrides o) := by
  rw [withEnvironment_of_readable base readable]
  exact
    { decoder := prevails_getD fun _ => value?_eq_some_iff
      outputRoot := prevails_getD fun _ => value?_eq_some_iff
      workers := prevails_getD fun _ => workers?_eq_some_iff
      optionsFile := prevails_orElse
      pollIntervalSeconds := prevails_orElse
      others := rfl }

/-! ## The two checks -/

theorem validate_eq_ok_iff :
    c.validate = .ok () ↔
      0 < c.workers ∧ 0 < c.queueCapacity ∧ 0 < c.retry.maxAttempts ∧ c.decoder ≠ "" ∧
        c.pollIntervalSeconds ≠ some 0 := by
  simp only [validate]
  split_ifs <;> simp_all [Nat.pos_iff_ne_zero]

/-- An interval of whole seconds is empty only if there are none. -/
theorem mode_ne_poll_zero_iff : c.mode ≠ .poll .zero ↔ c.pollIntervalSeconds ≠ some 0 := by
  rw [mode]
  cases c.pollIntervalSeconds with
  | none => simp
  | some seconds =>
      simp only [Span.ofSeconds, Span.zero, ne_eq, DiscoveryMode.poll.injEq, Span.mk.injEq, Option.some.injEq]
      omega

/-- The settings are refused for the same values as the configuration; only the decoder is no setting. -/
theorem validate_iff_settings : c.validate = .ok () ↔ c.decoder ≠ "" ∧ c.settings.validate = .ok () := by
  calc c.validate = .ok ()
    _ ↔ 0 < c.workers ∧ 0 < c.queueCapacity ∧ 0 < c.retry.maxAttempts ∧ c.decoder ≠ "" ∧
        c.pollIntervalSeconds ≠ some 0 := validate_eq_ok_iff
    _ ↔ c.decoder ≠ "" ∧ 0 < c.workers ∧ 0 < c.queueCapacity ∧ 0 < c.retry.maxAttempts ∧
        c.mode ≠ .poll .zero := by
      rw [mode_ne_poll_zero_iff]
      tauto
    _ ↔ c.decoder ≠ "" ∧ c.settings.validate = .ok () := and_congr_right' (Run.validate_eq_ok_iff (s := c.settings)).symm

theorem validate_fault {fault : Fault} (refused : c.validate = .error fault) :
    ∃ reason, fault = .config reason := by
  simp only [validate] at refused
  split_ifs at refused
  all_goals exact ⟨_, (Except.error.inj refused).symm⟩

end Config

theorem Settings.validate_fault {s : Settings} {fault : Fault} (refused : s.validate = .error fault) :
    ∃ reason, fault = .config reason := by
  simp only [validate] at refused
  split_ifs at refused
  all_goals exact ⟨_, (Except.error.inj refused).symm⟩

/-! ## Starting what passed -/

theorem Crew.perform_of_valid (crew : Crew) (tree : FileTree) {s : Settings} (valid : s.validate = .ok ()) :
    ∃ session, crew.perform s tree = .ok session := by
  have begun : (Run.make s >>= Run.start) = .ok (Run.fresh s 0 false) := Run.begin_of_validate valid
  rw [Crew.perform, ← bind_assoc, begun]
  exact ⟨_, rfl⟩

/-- A call that finds good settings and an idle run, and that nobody comes in between, gets the run. -/
theorem SharedRun.replay_alone_of_valid (w : World) {k : SharedRun} {i : Nat}
    (valid : k.run.settings.validate = .ok ()) (idle : k.run.lifecycle = .idle)
    (at_ : k.calls[i]? = some .checking) :
    ∃ n k', k.replay w (List.replicate n (.proceed i)) = some k' ∧
      k'.calls[i]? = some (.ended (.ok ())) ∧ k'.run.lifecycle = .running := by
  obtain ⟨n, course⟩ := replay_alone w at_
  rw [start_of_valid valid, if_pos idle] at course
  exact ⟨n, _, course, getElem?_move at_ (.ended (.ok ())), rfl⟩

namespace Config

/-- Of the values that several layers give, the highest prevails, and what no layer gives stays. The check of
a configuration passes just when it names a decoder and the check of its settings passes, each refuses with a
fault of the configuration, and what passed is started. -/
theorem layers_prevail_and_checks_agree (base : Config) (env : Environment) (o : Overrides) (c : Config) :
    ((∀ text, Sets env workersVariable text → ∃ n, Counts text n) →
      (base.withEnvironment env).2 = .ok () ∧
        ∀ layered, Layered base env o layered ↔ layered = (base.withEnvironment env).1.withOverrides o) ∧
      (c.validate = .ok () ↔ c.decoder ≠ "" ∧ c.settings.validate = .ok ()) ∧
      (∀ fault, c.validate = .error fault ∨ c.settings.validate = .error fault →
        ∃ reason, fault = .config reason) ∧
      (c.validate = .ok () →
        (∀ crew tree, ∃ session, Crew.perform crew c.settings tree = .ok session) ∧
          ∀ (w : World) (k : SharedRun) (i : Nat), k.run.settings = c.settings → k.run.lifecycle = .idle →
            k.calls[i]? = some .checking →
              ∃ n k', k.replay w (List.replicate n (.proceed i)) = some k' ∧
                k'.calls[i]? = some (.ended (.ok ())) ∧ k'.run.lifecycle = .running) := by
  refine ⟨?_, validate_iff_settings, ?_, ?_⟩
  · intro readable
    refine ⟨by rw [withEnvironment_of_readable base readable], fun layered => ⟨?_, ?_⟩⟩
    · intro other
      exact other.unique (layered_of_readable base o readable)
    · rintro rfl
      exact layered_of_readable base o readable
  · rintro fault (refused | refused)
    · exact validate_fault refused
    · exact Settings.validate_fault refused
  · intro passed
    have valid : c.settings.validate = .ok () := (validate_iff_settings.mp passed).2
    refine ⟨fun crew tree => crew.perform_of_valid tree valid, ?_⟩
    intro w k i settings idle at_
    exact SharedRun.replay_alone_of_valid w (settings ▸ valid) idle at_

/-- A number with a sign and white space around it, and a decoder that is set to nothing. -/
theorem layers_prevail_and_checks_agree_signed :
    let env : Environment := fun name =>
      if name = workersVariable then some " +3\u2003" else if name = decoderVariable then some "" else none
    let o : Overrides := { output := some "out", poll := some 5 }
    let c := (({} : Config).withEnvironment env).1.withOverrides o
    let k : SharedRun := { SharedRun.idle c.settings with calls := [.checking] }
    Layered {} env o c ∧ c.workers = 3 ∧ c.decoder = "PccAppDecoder" ∧
      (∀ crew tree, ∃ session, Crew.perform crew c.settings tree = .ok session) ∧
      ∀ w : World, ∃ n k', k.replay w (List.replicate n (.proceed 0)) = some k' ∧
        k'.calls[0]? = some (.ended (.ok ())) ∧ k'.run.lifecycle = .running := by
  intro env o c k
  obtain ⟨layers, agree, _, starts⟩ := layers_prevail_and_checks_agree {} env o c
  have readable : ∀ text, Sets env workersVariable text → ∃ n, Counts text n := by
    rintro text ⟨set, _⟩
    obtain rfl : " +3\u2003" = text := Option.some.inj set
    exact ⟨3, readWorkers?_eq_some_iff.mp (by decide)⟩
  have workers : c.workers = 3 := by decide
  have decoder : c.decoder = "PccAppDecoder" := by decide
  have passed : c.validate = .ok () := by decide
  obtain ⟨performs, called⟩ := starts passed
  exact ⟨((layers readable).2 c).mpr rfl, workers, decoder, performs, fun w => called w k 0 rfl rfl rfl⟩

end Config

end DecodePipeline
