/-
This file says what the program changes in a file system, whatever its tools are. An analysis changes
nothing until its report is complete, and then it writes the report's file and makes the directories
for it; setting up writes the configuration file and makes the directories for it, and refuses to
touch one that is there.
-/

import CodeAtlas.Command.Run
import CodeAtlas.Proofs.Config.Finding
import CodeAtlas.Proofs.Files.Changes

namespace CodeAtlas.Command

open FileSystem

/-! ### Failures before the report -/

/-- Why an analysis fails before its report is complete. -/
inductive FailsEarly (tools : Toolkit) (files : FileSystem) (shared : SharedSettings)
    (settings : AnalyzeSettings) : Failure → Prop
  /-- The configuration that is named cannot be read, or it is wrong. -/
  | config {path : String} {error : Config.LoadError} (named : shared.config = some path)
    (unusable : Config.load (configsIn tools files) (configFile files path) = .error error) :
    FailsEarly tools files shared settings (.config error)
  /-- The configuration alone names the format, and there is no such format. -/
  | format {settled : Settled} {refusal : String}
    (isSettled : settle tools files shared.config = .ok settled)
    (notNamed : settings.format = none)
    (unknown : Format.parse settled.config.output.format = .error refusal) :
    FailsEarly tools files shared settings (.format refusal)
  /-- The root is no directory. -/
  | root {settled : Settled} {format : Format}
    (isSettled : settle tools files shared.config = .ok settled)
    (chosen : settings.chooseFormat settled.config = .ok format)
    (missing : files.isDirectory (settings.chooseRoot files settled) = false) :
    FailsEarly tools files shared settings (.analysis (settings.chooseRoot files settled))
  /-- The walker cannot be set up for what is passed over below the root. -/
  | walk {settled : Settled} {format : Format} {reason : String}
    (isSettled : settle tools files shared.config = .ok settled)
    (chosen : settings.chooseFormat settled.config = .ok format)
    (isDirectory : files.isDirectory (settings.chooseRoot files settled) = true)
    (refuses : tools.walker.refusal? (settings.chooseRoot files settled)
      (Discovery.overrides tools.walker (settings.search settled.config)) = some reason) :
    FailsEarly tools files shared settings (.analysis (settings.chooseRoot files settled))

section Analyze

variable {tools : Toolkit} {files : FileSystem} {shared : SharedSettings}
  {settings : AnalyzeSettings} {settled : Settled} {failure : Failure}

theorem settle_eq_error_iff : settle tools files shared.config = .error failure ↔
    ∃ path error, shared.config = some path ∧
      Config.load (configsIn tools files) (configFile files path) = .error error ∧
      failure = .config error := by
  unfold settle
  cases shared.config with
  | none =>
    dsimp only
    split <;> simp
  | some path =>
    dsimp only
    split
    · next loaded => simp [loaded]
    · next error unusable => simp [unusable, eq_comm]

theorem buildDirectory_eq_error_iff {parser : Parser} {pools : Pools} {walker : Walker}
    {options : AnalysisOptions} {root : String} {search : DiscoveryOptions} :
    (∃ error, Project.buildDirectory parser pools walker files options root search = .error error) ↔
      files.isDirectory root = false ∨ files.isDirectory root = true ∧
        ∃ reason, walker.refusal? root (Discovery.overrides walker search) = some reason := by
  have overrides : Discovery.overrides walker search =
      (Discovery.rules walker search).overrides := rfl
  rw [Project.buildDirectory, Discovery.discover, overrides]
  cases files.isDirectory root with
  | false => simp
  | true =>
    dsimp only [if_pos]
    cases walker.refusal? root (Discovery.rules walker search).overrides <;> simp

theorem chooseFormat_eq_error_iff : settings.chooseFormat settled.config = .error failure ↔
    settings.format = none ∧ ∃ refusal,
      Format.parse settled.config.output.format = .error refusal ∧ failure = .format refusal := by
  rw [AnalyzeSettings.chooseFormat]
  cases settings.format with
  | some format => simp
  | none =>
    cases Format.parse settled.config.output.format <;> simp [eq_comm]

theorem report_eq_error_iff : report tools files settings settled = .error failure ↔
    settings.chooseFormat settled.config = .error failure ∨
      ∃ format, settings.chooseFormat settled.config = .ok format ∧
        (∃ error, Project.buildDirectory tools.parser tools.pools tools.walker files
          (settings.options settled.config) (settings.chooseRoot files settled)
          (settings.search settled.config) = .error error) ∧
        failure = .analysis (settings.chooseRoot files settled) := by
  rw [report]
  cases settings.chooseFormat settled.config with
  | error refusal => simp [bind, Except.bind]
  | ok format =>
    dsimp only [bind, Except.bind]
    cases Project.buildDirectory tools.parser tools.pools tools.walker files
      (settings.options settled.config) (settings.chooseRoot files settled)
      (settings.search settled.config) with
    | ok analysis => simp [pure, Except.pure]
    | error error => simp [throw, throwThe, MonadExceptOf.throw, eq_comm]

/-- An analysis fails early exactly if there is no configuration to settle on or no report. -/
theorem failsEarly_iff : FailsEarly tools files shared settings failure ↔
    settle tools files shared.config = .error failure ∨
      ∃ settled, settle tools files shared.config = .ok settled ∧
        report tools files settings settled = .error failure := by
  constructor
  · intro fails
    cases fails with
    | config named unusable => exact .inl (settle_eq_error_iff.mpr ⟨_, _, named, unusable, rfl⟩)
    | format isSettled notNamed unknown =>
      exact .inr ⟨_, isSettled, report_eq_error_iff.mpr
        (.inl (chooseFormat_eq_error_iff.mpr ⟨notNamed, _, unknown, rfl⟩))⟩
    | root isSettled chosen missing =>
      exact .inr ⟨_, isSettled, report_eq_error_iff.mpr
        (.inr ⟨_, chosen, buildDirectory_eq_error_iff.mpr (.inl missing), rfl⟩)⟩
    | walk isSettled chosen isDirectory refuses =>
      exact .inr ⟨_, isSettled, report_eq_error_iff.mpr
        (.inr ⟨_, chosen, buildDirectory_eq_error_iff.mpr (.inr ⟨isDirectory, _, refuses⟩), rfl⟩)⟩
  · rintro (unsettled | ⟨settled, isSettled, noReport⟩)
    · obtain ⟨path, error, named, unusable, rfl⟩ := settle_eq_error_iff.mp unsettled
      exact .config named unusable
    · rcases report_eq_error_iff.mp noReport with refused | ⟨format, chosen, notBuilt, rfl⟩
      · obtain ⟨notNamed, refusal, unknown, rfl⟩ := chooseFormat_eq_error_iff.mp refused
        exact .format isSettled notNamed unknown
      · rcases buildDirectory_eq_error_iff.mp notBuilt with missing | ⟨isDirectory, _, refuses⟩
        · exact .root isSettled chosen missing
        · exact .walk isSettled chosen isDirectory refuses

theorem analyze_of_failsEarly (fails : FailsEarly tools files shared settings failure) :
    analyze tools files shared settings = .refused files failure := by
  rw [analyze]
  rcases failsEarly_iff.mp fails with unsettled | ⟨settled, isSettled, noReport⟩
  · rw [unsettled]
  · rw [isSettled]
    dsimp only
    rw [noReport]

end Analyze

/-! ### Writing -/

section Writing

variable {files : FileSystem} {ready : FileSystem.Attempt} {path text said : String}
  {ways : List String}

theorem writesOnly_afterWriting
    (grows : Grows files ready.files fun place => ∃ way ∈ ways, ready.files.locate way = .ok place)
    (precede : ∀ way ∈ ways, Precedes way path) {printed : String}
    (succeeds : (Outcome.afterWriting ready path text said).result = .ok printed) :
    printed = said ∧
      ∃ target, WritesOnly files (Outcome.afterWriting ready path text said).files path text ways
        target := by
  unfold Outcome.afterWriting at succeeds ⊢
  split at succeeds
  · cases succeeds
  · split at succeeds
    · next written attempt =>
      have complete : (ready.files.writeText path text).error = none := by rw [attempt]
      refine ⟨(Except.ok.inj succeeds).symm, ?_⟩
      have writes := writesOnly_of_grows grows precede complete
      rwa [attempt] at writes
    · cases succeeds

theorem grows_readyFor (files : FileSystem) (path : String) :
    Grows files (readyFor files path).files fun place =>
      ∃ way ∈ Path.parents path, (readyFor files path).files.locate way = .ok place := by
  unfold readyFor
  cases above : directoryOf? path with
  | none => exact .refl _ _
  | some directory =>
    have isParent : Path.parent? path = some directory := Option.eq_some_of_filter_eq_some above
    dsimp only
    rw [FileSystem.makeDirectoryPath, ← Path.parents_eq_cons isParent]
    exact grows_makeDirectories files _

theorem grows_readyIn (files : FileSystem) (directory : String) :
    Grows files (readyIn files directory).files fun place =>
      ∃ way ∈ directory :: Path.parents directory,
        (readyIn files directory).files.locate way = .ok place := by
  unfold readyIn
  split
  · exact .refl _ _
  · exact grows_makeDirectories files _

end Writing

/-! ### Jobs -/

section Jobs

variable {tools : Toolkit} {files : FileSystem} {shared : SharedSettings}
  {settings : AnalyzeSettings}

/-- An analysis fails early, or it hands out its report. -/
theorem analyze_cases (tools : Toolkit) (files : FileSystem) (shared : SharedSettings)
    (settings : AnalyzeSettings) :
    (∃ failure, FailsEarly tools files shared settings failure) ∨
    ∃ settled complete, settle tools files shared.config = .ok settled ∧
      report tools files settings settled = .ok complete ∧
      analyze tools files shared settings =
        deliver files complete (settings.chooseOutput settled) := by
  cases isSettled : settle tools files shared.config with
  | error failure => exact .inl ⟨failure, failsEarly_iff.mpr (.inl isSettled)⟩
  | ok settled =>
    cases isComplete : report tools files settings settled with
    | error failure =>
      exact .inl ⟨failure, failsEarly_iff.mpr (.inr ⟨settled, isSettled, isComplete⟩)⟩
    | ok complete =>
      refine .inr ⟨settled, complete, rfl, isComplete, ?_⟩
      rw [analyze, isSettled]
      dsimp only
      rw [isComplete]

/-- An analysis that fails has failed early, or it could not write its report. -/
theorem of_analyze_eq_error {failure : Failure}
    (failed : (analyze tools files shared settings).result = .error failure) :
    FailsEarly tools files shared settings failure ∨
      ∃ settled complete path, settle tools files shared.config = .ok settled ∧
        report tools files settings settled = .ok complete ∧
        settings.chooseOutput settled = some path := by
  rcases analyze_cases tools files shared settings with
    ⟨early, fails⟩ | ⟨settled, complete, isSettled, isComplete, delivers⟩
  · rw [analyze_of_failsEarly fails] at failed
    obtain rfl := Except.error.inj failed
    exact .inl fails
  · cases isOutput : settings.chooseOutput settled with
    | none =>
      rw [delivers, isOutput] at failed
      cases failed
    | some path => exact .inr ⟨settled, complete, path, isSettled, isComplete, isOutput⟩

/-- An analysis that succeeds prints its report or writes it to its file. -/
theorem of_analyze_eq_ok {text : String}
    (succeeds : (analyze tools files shared settings).result = .ok text) :
    ∃ settled complete, settle tools files shared.config = .ok settled ∧
      report tools files settings settled = .ok complete ∧
      (settings.chooseOutput settled = none → text = complete ++ "\n" ∧
        (analyze tools files shared settings).files = files) ∧
      ∀ path, settings.chooseOutput settled = some path → text = "" ∧
        ∃ target, WritesOnly files (analyze tools files shared settings).files path complete
          (Path.parents path) target := by
  rcases analyze_cases tools files shared settings with
    ⟨early, fails⟩ | ⟨settled, complete, isSettled, isComplete, delivers⟩
  · rw [analyze_of_failsEarly fails] at succeeds
    cases succeeds
  · rw [delivers] at succeeds ⊢
    refine ⟨settled, complete, isSettled, isComplete, fun noOutput => ?_, fun path isOutput => ?_⟩
    · rw [noOutput] at succeeds ⊢
      exact ⟨(Except.ok.inj succeeds).symm, rfl⟩
    · rw [isOutput, deliver, writeReport] at succeeds
      rw [isOutput, deliver, writeReport]
      exact writesOnly_afterWriting (grows_readyFor files path)
        (fun way member => precedes_of_mem_parents member) succeeds

/-- Setting up never touches a configuration file that is there, unless it is forced to. -/
theorem setUp_of_exists {directory : String}
    (there : files.exists? (Config.fileIn directory) = true) :
    setUp files directory false = .refused files (.alreadyThere (Config.fileIn directory)) := by
  rw [setUp, there]
  rfl

/-- Setting up that succeeds writes the configuration file. -/
theorem writesOnly_setUp {directory text : String} {force : Bool}
    (succeeds : (setUp files directory force).result = .ok text) :
    text = "Created " ++ Config.fileIn directory ++ "\n" ∧
      ∃ target, WritesOnly files (setUp files directory force).files (Config.fileIn directory)
        Config.template (directory :: Path.parents directory) target := by
  unfold setUp at succeeds ⊢
  dsimp only at succeeds ⊢
  split at succeeds
  · cases succeeds
  · next writes =>
    rw [if_neg writes]
    exact writesOnly_afterWriting (grows_readyIn files directory)
      (fun way member => precedes_join Config.isName_fileName member) succeeds

/-- What is written to the usual configuration file is found from the working directory, if the path
from the root leads to this directory and the file may be read. -/
theorem find_of_writesOnly {after : FileSystem} {text : String} {target : Place}
    (writes : WritesOnly files after (Config.fileIn Config.directoryName) text
      (Config.directoryName :: Path.parents Config.directoryName) target)
    (names : ∀ name ∈ files.here, IsName name) (isOpen : IsPassable files files.here)
    (readable : files.refusal? .read target = none) (parse? : String → Option Config) :
    Config.nearest? (Config.sourceIn after parse?)
        (pathOf files.here :: Path.parents (pathOf files.here)) = some (pathOf files.here) ∧
      after.readText? (Config.fileIn (Config.directoryIn (pathOf files.here))) = some text ∧
      ∀ config, parse? text = some config →
        Config.find (Config.sourceIn after parse?) (pathOf files.here) =
          .ok (some ⟨config, Config.directoryIn (pathOf files.here)⟩) := by
  obtain ⟨leads, _⟩ := locate_eq_ok_iff.mp writes.located
  obtain ⟨_, left, walks⟩ := target_eq_ok_iff.mp leads
  have start : after.origin (Config.fileIn Config.directoryName) = files.here := by
    rw [origin, writes.keeps.here, base, if_neg (by decide +kernel)]
  have pieces : Path.pieces (Config.fileIn Config.directoryName) =
      [Config.directoryName.toList, Config.fileName.toList] := by decide +kernel
  rw [start, pieces] at walks
  -- The first name is followed from the working directory, which is there then.
  have isDirectory : after.standing? files.here = some .directory := by
    cases walks with
    | step stepped _ => exact isDirectory_of_step stepped
    | follow stepped _ => exact isDirectory_of_step stepped
  refine Config.find_of_text names isDirectory ?_ walks ?_ writes.written parse?
  · rw [IsPassable, writes.keeps.refusal]
    exact isOpen
  · rw [writes.keeps.refusal]
    exact readable

end Jobs

/-! ### Runs -/

section Runs

variable {tools : Toolkit} {environment : Environment} {files : FileSystem}
  {line : List String} {invocation : Invocation}

theorem ending_eq_failed_iff {outcome : Outcome} {failure : Failure} :
    outcome.ending = .failed failure ↔ outcome.result = .error failure := by
  unfold Outcome.ending
  cases outcome.result <;> simp

theorem ending_eq_printed_iff {outcome : Outcome} {text : String} :
    outcome.ending = .printed text ↔ outcome.result = .ok text := by
  unfold Outcome.ending
  cases outcome.result <;> simp

theorem run_eq_iff {ending : Ending} {after : FileSystem}
    (asks : tools.readLine environment line = .ok invocation) :
    run tools environment files line = (ending, after) ↔
      (invocation.run tools files).ending = ending ∧
        (invocation.run tools files).files = after := by
  rw [run, asks]
  exact Prod.ext_iff

theorem run_eq_of_ending {ending : Ending} (ends : (run tools environment files line).1 = ending) :
    run tools environment files line = (ending, (run tools environment files line).2) :=
  Prod.ext ends rfl

theorem run_analyze {settings : AnalyzeSettings}
    (noLog : invocation.shared.logDirectory = none)
    (isAnalyze : invocation.job = .analyze settings) :
    invocation.run tools files = analyze tools files invocation.shared settings := by
  rw [Invocation.run, noLog, isAnalyze]
  rfl

theorem run_init {force : Bool} (noLog : invocation.shared.logDirectory = none)
    (isInit : invocation.job = .init force) :
    invocation.run tools files =
      setUp files (invocation.shared.config.getD Config.directoryName) force := by
  rw [Invocation.run, noLog, isInit]
  rfl

/-- What the program does to files when no directory for logs is asked for. An analysis that fails
before its report is complete changes nothing at all; one that succeeds changes nothing if it has no
file for its report, and otherwise only this file and directories that were not there. Setting up
refuses to touch a configuration file that is there if it is not forced to, and then changes nothing;
where it succeeds, it changes only this file and directories that were not there. To each directory
that is made a path leads that stands before the last name in the path of the file, and if that path
does not go up, the directory lies above the file. When no configuration was named, the one for the
working directory is then the fresh one, provided that the path from the root leads to the working
directory and that the file may be read. -/
theorem run_spares_files (tools : Toolkit) (environment : Environment) (files : FileSystem)
    (line : List String) (invocation : Invocation)
    (asks : tools.readLine environment line = .ok invocation)
    (noLog : invocation.shared.logDirectory = none) :
    (∀ settings, invocation.job = .analyze settings →
      (∀ failure, FailsEarly tools files invocation.shared settings failure →
        run tools environment files line = (.failed failure, files)) ∧
      (∀ failure after, run tools environment files line = (.failed failure, after) →
        ¬ FailsEarly tools files invocation.shared settings failure →
        ∃ settled complete path, settle tools files invocation.shared.config = .ok settled ∧
          report tools files settings settled = .ok complete ∧
          settings.chooseOutput settled = some path) ∧
      ∀ text after, run tools environment files line = (.printed text, after) →
        ∃ settled complete, settle tools files invocation.shared.config = .ok settled ∧
          report tools files settings settled = .ok complete ∧
          (settings.chooseOutput settled = none → text = complete ++ "\n" ∧ after = files) ∧
          ∀ path, settings.chooseOutput settled = some path → text = "" ∧
            ∃ target, WritesOnly files after path complete (Path.parents path) target) ∧
    ∀ force, invocation.job = .init force →
      (force = false → files.exists?
          (Config.fileIn (invocation.shared.config.getD Config.directoryName)) = true →
        run tools environment files line = (.failed (.alreadyThere
          (Config.fileIn (invocation.shared.config.getD Config.directoryName))), files)) ∧
      ∀ text after, run tools environment files line = (.printed text, after) →
        ∃ target, WritesOnly files after
            (Config.fileIn (invocation.shared.config.getD Config.directoryName)) Config.template
            (invocation.shared.config.getD Config.directoryName ::
              Path.parents (invocation.shared.config.getD Config.directoryName)) target ∧
          (invocation.shared.config = none → (∀ name ∈ files.here, IsName name) →
            IsPassable files files.here → files.refusal? .read target = none →
            Config.nearest? (configsIn tools after)
                (pathOf files.here :: Path.parents (pathOf files.here)) =
                some (pathOf files.here) ∧
              after.readText? (Config.fileIn (Config.directoryIn (pathOf files.here))) =
                some Config.template ∧
              ∀ config, tools.readConfig? Config.template = some config →
                Config.find (configsIn tools after) (pathOf files.here) =
                  .ok (some ⟨config, Config.directoryIn (pathOf files.here)⟩)) := by
  refine ⟨fun settings isAnalyze => ⟨fun failure fails => ?_, fun failure after ran late => ?_,
    fun text after ran => ?_⟩,
    fun force isInit => ⟨fun unforced there => ?_, fun text after ran => ?_⟩⟩
  · rw [run_eq_iff asks, run_analyze noLog isAnalyze, analyze_of_failsEarly fails]
    exact ⟨rfl, rfl⟩
  · obtain ⟨failed, rfl⟩ := (run_eq_iff asks).mp ran
    rw [run_analyze noLog isAnalyze, ending_eq_failed_iff] at failed
    exact (of_analyze_eq_error failed).resolve_left late
  · obtain ⟨succeeds, rfl⟩ := (run_eq_iff asks).mp ran
    rw [run_analyze noLog isAnalyze] at succeeds ⊢
    exact of_analyze_eq_ok (ending_eq_printed_iff.mp succeeds)
  · rw [run_eq_iff asks, run_init noLog isInit, unforced, setUp_of_exists there]
    exact ⟨rfl, rfl⟩
  · obtain ⟨succeeds, rfl⟩ := (run_eq_iff asks).mp ran
    rw [run_init noLog isInit] at succeeds ⊢
    obtain ⟨_, target, writes⟩ := writesOnly_setUp (ending_eq_printed_iff.mp succeeds)
    refine ⟨target, writes, fun unnamed names isOpen readable => ?_⟩
    rw [unnamed, Option.getD_none] at writes ⊢
    exact find_of_writesOnly writes names isOpen readable tools.readConfig?

/-- A project with nothing in it but a text. -/
def yard : FileSystem where
  root := .directory [("top", .directory [("proj", .directory [
    ("seed.txt", .file ⟨#[120, 10]⟩)])])]
  here := ["top", "proj"]

/-- The project where something may not be done at one place. -/
def yardBarring (access : Access) (place : Place) : FileSystem :=
  { yard with refusal? := fun asked there =>
      if asked = access ∧ there = place then some .denied else none }

/-- The built-in tools without a parser. -/
def plainTools : Toolkit :=
  .builtIn (.ofKnown [])

/-- After setting up in the project, its configuration is the fresh one, and nothing but the
configuration file and directories for it has changed. -/
theorem run_spares_files_yard :
    plainTools.readLine {} ["init"] = .ok ⟨{}, .init false⟩ ∧
      ∃ after target, run plainTools {} yard ["init"] =
          (.printed "Created .codemap/config.toml\n", after) ∧
        WritesOnly yard after (Config.fileIn Config.directoryName) Config.template
          (Config.directoryName :: Path.parents Config.directoryName) target ∧
        Config.find (configsIn plainTools after) (pathOf yard.here) =
          .ok (some ⟨Config.fresh, Config.directoryIn (pathOf yard.here)⟩) := by
  have asks : plainTools.readLine {} ["init"] = .ok ⟨{}, .init false⟩ := by decide +kernel
  have ran : run plainTools {} yard ["init"] =
      (.printed "Created .codemap/config.toml\n", (run plainTools {} yard ["init"]).2) :=
    run_eq_of_ending (by decide +kernel)
  obtain ⟨_, whenInit⟩ := run_spares_files plainTools {} yard ["init"] ⟨{}, .init false⟩ asks rfl
  obtain ⟨target, writes, found⟩ := (whenInit false rfl).2 _ _ ran
  have names : ∀ name ∈ yard.here, IsName name := by simp [yard, IsName]
  obtain ⟨_, _, finds⟩ := found rfl names (fun _ _ _ => rfl) rfl
  have reader : plainTools.readConfig? = Config.parse? := rfl
  exact ⟨asks, _, target, ran, writes, finds _ (reader ▸ Config.parse?_template)⟩

/-- None of the conditions can be spared. A path that goes up from a directory that is not there has
it made, although neither the report nor the chosen directory for the configuration lies in it. A
directory for logs is made even if the environment alone names it and the analysis fails. A fresh
configuration is not found if the root may not be searched, and not loaded if its file may not be
read. -/
theorem run_spares_files_sharp :
    (∃ after, run plainTools {} yard ["analyze", "--output", "a/../b/out.md"] =
        (.printed "", after) ∧
      after.locate "a/../b/out.md" = .ok ["top", "proj", "b", "out.md"] ∧
      yard.standing? ["top", "proj", "a"] = none ∧
      after.standing? ["top", "proj", "a"] = some .directory ∧
      ¬ IsAbove ["top", "proj", "a"] ["top", "proj", "b", "out.md"]) ∧
    (∃ after, run plainTools {} yard ["--config", "a/../b", "init"] =
        (.printed "Created a/../b/config.toml\n", after) ∧
      after.locate "a/../b" = .ok ["top", "proj", "b"] ∧
      yard.standing? ["top", "proj", "a"] = none ∧
      after.standing? ["top", "proj", "a"] = some .directory) ∧
    (∃ after, run plainTools { logDirectory := some "logs" } yard
          ["--config", "gone.toml", "analyze"] =
        (.failed (.config (.unreadable "gone.toml")), after) ∧
      yard.standing? ["top", "proj", "logs"] = none ∧
      after.standing? ["top", "proj", "logs"] = some .directory) ∧
    (∃ after, run plainTools {} (yardBarring .search []) ["init"] =
        (.printed "Created .codemap/config.toml\n", after) ∧
      Config.find (configsIn plainTools after) (pathOf yard.here) = .ok none) ∧
    ∃ after, run plainTools {}
          (yardBarring .read ["top", "proj", ".codemap", "config.toml"]) ["init"] =
        (.printed "Created .codemap/config.toml\n", after) ∧
      Config.find (configsIn plainTools after) (pathOf yard.here) =
        .error (.unreadable "/top/proj/.codemap/config.toml") := by
  have outside : (run plainTools {} yard ["analyze", "--output", "a/../b/out.md"]).1 = .printed "" ∧
      (run plainTools {} yard ["analyze", "--output", "a/../b/out.md"]).2.locate "a/../b/out.md" =
        .ok ["top", "proj", "b", "out.md"] ∧
      ((run plainTools {} yard ["analyze", "--output", "a/../b/out.md"]).2.at?
        ["top", "proj", "a"]).any Entry.isDirectory = true := by decide +kernel
  have configured : (run plainTools {} yard ["--config", "a/../b", "init"]).1 =
        .printed "Created a/../b/config.toml\n" ∧
      (run plainTools {} yard ["--config", "a/../b", "init"]).2.locate "a/../b" =
        .ok ["top", "proj", "b"] ∧
      ((run plainTools {} yard ["--config", "a/../b", "init"]).2.at?
        ["top", "proj", "a"]).any Entry.isDirectory = true := by decide +kernel
  have logged : (run plainTools { logDirectory := some "logs" } yard
          ["--config", "gone.toml", "analyze"]).1 = .failed (.config (.unreadable "gone.toml")) ∧
      ((run plainTools { logDirectory := some "logs" } yard
          ["--config", "gone.toml", "analyze"]).2.at?
        ["top", "proj", "logs"]).any Entry.isDirectory = true := by decide +kernel
  have unsearched : (run plainTools {} (yardBarring .search []) ["init"]).1 =
        .printed "Created .codemap/config.toml\n" ∧
      Config.find (configsIn plainTools (run plainTools {} (yardBarring .search []) ["init"]).2)
        (pathOf yard.here) = .ok none := by decide +kernel
  have unread : (run plainTools {}
          (yardBarring .read ["top", "proj", ".codemap", "config.toml"]) ["init"]).1 =
        .printed "Created .codemap/config.toml\n" ∧
      Config.find (configsIn plainTools (run plainTools {}
          (yardBarring .read ["top", "proj", ".codemap", "config.toml"]) ["init"]).2)
        (pathOf yard.here) = .error (.unreadable "/top/proj/.codemap/config.toml") := by
    decide +kernel
  obtain ⟨ended, located, made⟩ := outside
  obtain ⟨endedToo, locatedToo, madeToo⟩ := configured
  obtain ⟨failed, logs⟩ := logged
  refine ⟨⟨_, run_eq_of_ending ended, located, rfl, standing?_eq_directory_iff_any.mpr made, ?_⟩,
    ⟨_, run_eq_of_ending endedToo, locatedToo, rfl, standing?_eq_directory_iff_any.mpr madeToo⟩,
    ⟨_, run_eq_of_ending failed, rfl, standing?_eq_directory_iff_any.mpr logs⟩,
    ⟨_, run_eq_of_ending unsearched.1, unsearched.2⟩, ⟨_, run_eq_of_ending unread.1, unread.2⟩⟩
  unfold IsAbove
  decide +kernel

end Runs

end CodeAtlas.Command
