/-
This file compares what is said to be wrong with a configuration with what an analysis makes of it.
A granularity that is no word for one, and no workers, are complained of exactly if they are not
used as they are written. A format is complained of unless it is the name of one, letter by letter,
while an analysis also takes a short name, and any of the words in other letters.
-/

import CodeAtlas.Proofs.Command.Effects

namespace CodeAtlas

/-! ### Words -/

/-- Whether a text is a word but for the case of its letters. -/
def IsWord (word text : String) : Prop :=
  Text.lower text.toList = word.toList

theorem ofList_lower_eq_iff {word text : String} :
    String.ofList (Text.lower text.toList) = word ↔ IsWord word text := by
  rw [IsWord, ← String.toList_inj, String.toList_ofList]

theorem Granularity.ofText?_eq_some_iff {text : String} {granularity : Granularity} :
    ofText? text = some granularity ↔ granularity.text = text := by
  constructor
  · intro found
    rw [ofText?] at found
    simpa using List.find?_some found
  · rintro rfl
    cases granularity <;> decide

/-- A granularity is read from its word alone. -/
theorem Granularity.parse_eq_ok_iff {text : String} {granularity : Granularity} :
    parse text = .ok granularity ↔ IsWord granularity.text text := by
  rw [← ofList_lower_eq_iff, eq_comm (b := granularity.text), ← ofText?_eq_some_iff, parse]
  cases ofText? (String.ofList (Text.lower text.toList)) <;> simp

theorem Granularity.parse_eq_error_iff {text : String} :
    (∃ refusal, parse text = .error refusal) ↔
      ∀ granularity : Granularity, ¬ IsWord granularity.text text := by
  simp only [← parse_eq_ok_iff]
  cases parse text <;> simp

/-- The words from which a format is read. -/
def Format.words : List String :=
  ["markdown", "md", "json"]

/-- A format is refused that is none of the words. -/
theorem Format.parse_eq_error_iff {text : String} :
    (∃ refusal, parse text = .error refusal) ↔ ∀ word ∈ words, ¬ IsWord word text := by
  simp only [words, List.forall_mem_cons, ← ofList_lower_eq_iff, parse]
  split
  · next isMarkdown => rcases isMarkdown with same | same <;> simp [same]
  · next notMarkdown =>
    rw [not_or] at notMarkdown
    split
    · next same => simp [same]
    · next notJson => simp [notMarkdown, notJson]

theorem Format.isWord_name (format : Format) : IsWord format.name format.name := by
  cases format <;> (unfold IsWord; decide +kernel)

/-! ### Problems -/

namespace Config

/-- Whether something is said to be wrong with a field of a configuration. -/
def Reports (config : Config) (field : String) : Prop :=
  ∃ problem ∈ config.problems, problem.field = field

variable {config : Config}

/-- What is checked: a field, and what is found to be wrong with it. -/
def checks (config : Config) : List (String × Option Problem) := [
  ("analysis.granularity", config.granularityProblem?),
  ("analysis.parallelism", config.workersProblem?),
  ("output.format", config.formatProblem?),
  ("discovery.extensions", config.extensionProblem?)]

/-- What is found to be wrong with a field is about that field. -/
theorem field_of_mem_checks {field : String} {problem : Problem}
    (isCheck : (field, some problem) ∈ config.checks) : problem.field = field := by
  simp only [checks, List.mem_cons, Prod.mk.injEq, List.not_mem_nil, or_false] at isCheck
  rcases isCheck with ⟨rfl, found⟩ | ⟨rfl, found⟩ | ⟨rfl, found⟩ | ⟨rfl, found⟩
  · rw [granularityProblem?] at found
    split at found
    · cases found
    · exact Option.some.inj found ▸ rfl
  · rw [workersProblem?] at found
    split at found
    · exact Option.some.inj found ▸ rfl
    · cases found
  · rw [formatProblem?] at found
    split at found
    · cases found
    · exact Option.some.inj found ▸ rfl
  · obtain ⟨text, _, rfl⟩ := Option.map_eq_some_iff.mp found.symm
    rfl

theorem reports_iff {field : String} :
    config.Reports field ↔ ∃ problem, (field, some problem) ∈ config.checks := by
  have problemsOf : config.problems = config.checks.filterMap Prod.snd := by
    show (config.checks.map Prod.snd).filterMap id = _
    rw [List.filterMap_map, Function.id_comp]
  rw [Reports, problemsOf]
  constructor
  · rintro ⟨problem, isProblem, rfl⟩
    obtain ⟨⟨field, found⟩, isCheck, rfl⟩ := List.mem_filterMap.mp isProblem
    exact ⟨problem, field_of_mem_checks isCheck ▸ isCheck⟩
  · rintro ⟨problem, isCheck⟩
    exact ⟨problem, List.mem_filterMap.mpr ⟨_, isCheck, rfl⟩, field_of_mem_checks isCheck⟩

theorem reports_granularity_iff : config.Reports "analysis.granularity" ↔
    ∀ granularity : Granularity, ¬ IsWord granularity.text config.analysis.granularity := by
  rw [reports_iff, ← Granularity.parse_eq_error_iff]
  simp only [checks, granularityProblem?]
  cases Granularity.parse config.analysis.granularity <;> simp

theorem reports_workers_iff :
    config.Reports "analysis.parallelism" ↔ config.analysis.workers = some 0 := by
  rw [reports_iff]
  simp [checks, workersProblem?]

theorem reports_format_iff : config.Reports "output.format" ↔
    config.output.format ≠ Format.markdown.name ∧ config.output.format ≠ Format.json.name := by
  rw [reports_iff]
  simp [checks, formatProblem?]

/-! ### Use -/

/-- The granularity that is used is the one that the configuration names, if it names one, and
otherwise the usual one. -/
theorem usedGranularity_cases :
    IsWord config.analysisOptions.granularity.text config.analysis.granularity ∨
      (∀ granularity : Granularity, ¬ IsWord granularity.text config.analysis.granularity) ∧
        config.analysisOptions.granularity = ({} : AnalysisOptions).granularity := by
  have used : config.analysisOptions.granularity = config.usedGranularity := by
    rw [analysisOptions]
    cases config.analysis.workers <;> rfl
  rw [used, usedGranularity]
  cases parsed : Granularity.parse config.analysis.granularity with
  | ok granularity => exact .inl (Granularity.parse_eq_ok_iff.mp parsed)
  | error refusal => exact .inr ⟨Granularity.parse_eq_error_iff.mp ⟨refusal, parsed⟩, rfl⟩

/-- Only workers that are none are not used as they are counted. -/
theorem usedWorkers_ne_iff :
    (∃ count, config.analysis.workers = some count ∧
      config.analysisOptions.workers ≠ some count) ↔ config.analysis.workers = some 0 := by
  rw [analysisOptions]
  cases config.analysis.workers with
  | none => simp
  | some count =>
    have used (options : AnalysisOptions) :
        (withWorkersIf options (some count)).workers = some (max count 1) := rfl
    rw [used]
    simp only [Option.some_inj, exists_eq_left', ne_eq]
    omega

end Config

/-! ### Runs -/

namespace Command

variable {tools : Toolkit} {environment : Environment} {files : FileSystem} {line : List String}
  {shared : SharedSettings} {settings : AnalyzeSettings} {settled : Settled}

/-- Handing out a report never fails for its format. -/
theorem deliver_ne_format (report : String) (output : Option String) (refusal : String) :
    (deliver files report output).result ≠ .error (.format refusal) := by
  intro failed
  cases output with
  | none => cases failed
  | some path =>
    rw [deliver, writeReport] at failed
    unfold Outcome.afterWriting at failed
    split at failed
    · cases failed
    · split at failed <;> cases failed

/-- An analysis with a configuration fails for its format exactly if it cannot choose one. -/
theorem analyze_eq_format_iff (isSettled : settle tools files shared.config = .ok settled)
    {refusal : String} :
    (analyze tools files shared settings).result = .error (.format refusal) ↔
      settings.chooseFormat settled.config = .error (.format refusal) := by
  rw [analyze, isSettled]
  dsimp only
  cases isComplete : report tools files settings settled with
  | error failure =>
    dsimp only [Outcome.refused]
    rw [Except.error.injEq]
    constructor
    · rintro rfl
      rcases report_eq_error_iff.mp isComplete with refused | ⟨_, _, _, isRoot⟩
      · exact refused
      · cases isRoot
    · intro refused
      have noReport := (@report_eq_error_iff tools files _ _ _).mpr (.inl refused)
      exact Except.error.inj (isComplete.symm.trans noReport)
  | ok complete =>
    refine iff_of_false (deliver_ne_format complete _ refusal) fun refused => ?_
    have noReport := (@report_eq_error_iff tools files _ _ _).mpr (.inl refused)
    rw [isComplete] at noReport
    cases noReport

/-- A run without a format of its own fails for a format exactly if none can be chosen with the
configuration that counts. -/
theorem run_eq_format_iff
    (asks : tools.readLine environment line = .ok ⟨shared, .analyze settings⟩)
    (isSettled : settle tools (withLogDirectory files shared.logDirectory) shared.config = .ok settled) :
    (∃ refusal after, run tools environment files line = (.failed (.format refusal), after)) ↔
      ∃ failure, settings.chooseFormat settled.config = .error failure := by
  have result : (Invocation.run tools files ⟨shared, .analyze settings⟩).result =
      (analyze tools (withLogDirectory files shared.logDirectory) shared settings).result := rfl
  simp only [run_eq_iff asks, ending_eq_failed_iff, result, analyze_eq_format_iff isSettled,
    exists_eq_right']
  constructor
  · rintro ⟨refusal, refused⟩
    exact ⟨_, refused⟩
  · rintro ⟨failure, refused⟩
    obtain ⟨_, refusal, _, rfl⟩ := chooseFormat_eq_error_iff.mp refused
    exact ⟨refusal, refused⟩

/-- Without a format of its own an analysis can choose none if the configuration has none of the
words. -/
theorem chooseFormat_eq_error_iff_words {config : Config} (notNamed : settings.format = none) :
    (∃ failure, settings.chooseFormat config = .error failure) ↔
      ∀ word ∈ Format.words, ¬ IsWord word config.output.format := by
  rw [← Format.parse_eq_error_iff]
  simp only [@chooseFormat_eq_error_iff settings ⟨config, none⟩, notNamed, true_and]
  constructor
  · rintro ⟨_, refusal, refused, _⟩
    exact ⟨refusal, refused⟩
  · rintro ⟨refusal, refused⟩
    exact ⟨_, refusal, refused, rfl⟩

/-- What is said to be wrong with a configuration, beside what is made of it. A granularity is
complained of exactly if another one is used, the usual one, and workers exactly if another number
of them is put to work. A format is complained of if it is not the very name of one. A run that is
not told a format refuses it only if it is none of the words, in whatever letters: what it refuses
is complained of, but it does not refuse all that is. -/
theorem reports_beside_use (config : Config) :
    (config.Reports "analysis.granularity" ↔
      ¬ IsWord config.analysisOptions.granularity.text config.analysis.granularity ∧
        config.analysisOptions.granularity = ({} : AnalysisOptions).granularity) ∧
    (config.Reports "analysis.parallelism" ↔ ∃ count, config.analysis.workers = some count ∧
      config.analysisOptions.workers ≠ some count) ∧
    (config.Reports "output.format" ↔
      config.output.format ≠ Format.markdown.name ∧ config.output.format ≠ Format.json.name) ∧
    ∀ settings : AnalyzeSettings, settings.format = none →
      ((∃ failure, settings.chooseFormat config = .error failure) ↔
        ∀ word ∈ Format.words, ¬ IsWord word config.output.format) ∧
      ((∃ failure, settings.chooseFormat config = .error failure) →
        config.Reports "output.format") ∧
      ∀ tools environment files line shared directory,
        tools.readLine environment line = .ok ⟨shared, .analyze settings⟩ →
        settle tools (withLogDirectory files shared.logDirectory) shared.config =
          .ok ⟨config, directory⟩ →
        ((∃ refusal after,
            run tools environment files line = (.failed (.format refusal), after)) ↔
          ∃ failure, settings.chooseFormat config = .error failure) := by
  refine ⟨?_, Config.reports_workers_iff.trans Config.usedWorkers_ne_iff.symm,
    Config.reports_format_iff, fun settings notNamed => ?_⟩
  · rw [Config.reports_granularity_iff]
    rcases @Config.usedGranularity_cases config with named | ⟨unnamed, usual⟩
    · exact iff_of_false (fun unnamed => unnamed _ named) fun other => other.1 named
    · exact iff_of_true unnamed ⟨unnamed _, usual⟩
  · have refuses := @chooseFormat_eq_error_iff_words settings config notNamed
    refine ⟨refuses, fun refused => ?_,
      fun tools environment files line shared directory asks isSettled => ?_⟩
    · have unread := refuses.mp refused
      refine Config.reports_format_iff.mpr ⟨fun same => ?_, fun same => ?_⟩ <;>
        rw [same] at unread
      · exact unread _ (by decide) (Format.isWord_name .markdown)
      · exact unread _ (by decide) (Format.isWord_name .json)
    · exact @run_eq_format_iff tools environment files line shared settings ⟨config, directory⟩
        asks isSettled

/-- A project with a configuration of some lines. -/
def configured (lines : List String) : FileSystem where
  root := .directory [(Config.directoryName, .directory [
    (Config.fileName, .file (String.join (lines.map (· ++ "\n"))).toUTF8)])]

/-- A project whose configuration asks for a granularity and a format that there are not, and for
no workers. -/
def strayProject : FileSystem :=
  configured ["[analysis]", "granularity = \"module\"", "parallelism = 0", "[output]",
    "format = \"html\""]

/-- What the configuration of that project says. -/
def stray : Config where
  analysis := { granularity := "module", workers := some 0 }
  output := { format := "html" }

/-- All three are complained of, and the run fails for its format. -/
theorem reports_beside_use_stray :
    plainTools.readLine {} ["analyze"] = .ok ⟨{}, .analyze {}⟩ ∧
      settle plainTools strayProject none = .ok ⟨stray, some "/.codemap"⟩ ∧
      stray.Reports "analysis.granularity" ∧ stray.Reports "analysis.parallelism" ∧
      stray.Reports "output.format" ∧
      ∃ refusal after, run plainTools {} strayProject ["analyze"] =
        (.failed (.format refusal), after) := by
  have asks : plainTools.readLine {} ["analyze"] = .ok ⟨{}, .analyze {}⟩ := by decide +kernel
  have isSettled : settle plainTools strayProject none = .ok ⟨stray, some "/.codemap"⟩ := by decide +kernel
  obtain ⟨granularity, workers, format, whenUnnamed⟩ := reports_beside_use stray
  obtain ⟨refuses, _, atRun⟩ := whenUnnamed {} rfl
  have unread : ∀ word ∈ Format.words, ¬ IsWord word stray.output.format := by
    unfold IsWord
    decide +kernel
  refine ⟨asks, isSettled, granularity.mpr ⟨?_, rfl⟩, workers.mpr ⟨0, rfl, by decide⟩,
    format.mpr ⟨by decide, by decide⟩, ?_⟩
  · unfold IsWord
    decide +kernel
  · exact (atRun plainTools {} strayProject ["analyze"] {} _ asks isSettled).mpr
      (refuses.mpr unread)

/-- A project whose configuration asks for a format by its short name. -/
def shortProject : FileSystem :=
  configured ["[output]", "format = \"md\""]

/-- What the configuration of that project says. -/
def short : Config where
  output := { format := "md" }

/-- The short name is complained of, and a run that is not told a format takes it all the same. -/
theorem exists_reports_format_used :
    plainTools.readLine {} ["analyze"] = .ok ⟨{}, .analyze {}⟩ ∧
      settle plainTools shortProject none = .ok ⟨short, some "/.codemap"⟩ ∧
      short.Reports "output.format" ∧
      ({} : AnalyzeSettings).chooseFormat short = .ok .markdown ∧
      (run plainTools {} shortProject ["analyze"]).1.complaint? = none := by
  exact ⟨by decide +kernel, by decide +kernel,
    Config.reports_format_iff.mpr ⟨by decide, by decide⟩, by decide +kernel, by decide +kernel⟩

end Command

end CodeAtlas
