import FormsAudit.Proofs.Config.Precedence
import FormsAudit.Proofs.Program.Effect
import FormsAudit.Proofs.Scan.Again

/-!
# A run done again

A run leaves its report in the tree that the next one reads.  Where the report lies apart from what a
run reads, the next run tells the same (`runAlong_again`): its configuration is the same, since each
place that is looked at for one holds what it held (`Config.sameFile_of_filedAt`); so is what its
scan comes to (`Scan.reference_eq_of_writeFile`); and what can be reported and written once can be
reported and written again.
-/

namespace FormsAudit

open FileSystem

/-! ## The configuration -/

namespace Config

variable {before after : FileSystem} {userDirectory : Option Path} {options : Options}
  {path : Path} {target : List EntryName} {content : List UInt8}

/-- One who looks for the file of the configuration looks at the path: it is named, or it is one of
the usual places and those before it hold no file. -/
inductive LooksUp (fs : FileSystem) (userDirectory : Option Path) (options : Options) : Path → Prop
  | named {name : String} : options.config = some name →
      LooksUp fs userDirectory options (.ofString name)
  | usual {before after : List Path} {path : Path} : options.config = none →
      candidates (.ofString options.root) userDirectory = before ++ path :: after →
      (∀ other ∈ before, fs.exists other = false) → LooksUp fs userDirectory options path

theorem exists_lookup_of_ofFile {fs : FileSystem} {config : Config}
    (h : ofFile fs path = .ok config) : ∃ names node, fs.lookup path = .ok (names, node) := by
  cases hlookup : fs.lookup path with
  | error errno => simp [ofFile, readText, contentOf, FileSystem.read, hlookup] at h
  | ok found => exact ⟨found.1, found.2, rfl⟩

/-- What is read at a path that leads somewhere, but not to the place, is as it was. -/
theorem contentOf_eq_of_ofFile (hfiled : FiledAt target content before after) {config : Config}
    (hne : ∀ node, before.place path ≠ .ok ⟨target, node⟩) (h : ofFile before path = .ok config) :
    after.contentOf path = before.contentOf path := by
  obtain ⟨names, node, hlookup⟩ := exists_lookup_of_ofFile h
  refine hfiled.contentOf_eq (pathLeads_of_lookup (by decide) hlookup) ?_
  rintro rfl
  exact hne _ (lookup_eq_ok_iff.mp hlookup)

section Filed

variable (hfiled : FiledAt target content before after)
  (hunread : ∀ path, LooksUp before userDirectory options path →
    ∀ node, before.place path ≠ .ok ⟨target, node⟩)

include hfiled hunread

/-- The usual places that are looked at and hold no file hold none afterwards. -/
theorem exists_eq_false_of_filedAt {others rest : List Path} (hnone : options.config = none)
    (hplaces : candidates (.ofString options.root) userDirectory = others ++ rest)
    (hothers : ∀ place ∈ others, before.exists place = false) :
    ∀ place ∈ others, after.exists place = false := by
  intro place hplace
  obtain ⟨first, last, rfl⟩ := List.append_of_mem hplace
  have hlooks : LooksUp before userDirectory options place := by
    refine .usual hnone (by rw [hplaces, List.append_assoc, List.cons_append]) ?_
    exact fun other hother => hothers other (List.mem_append_left _ hother)
  rw [hfiled.exists_eq (hunread place hlooks), hothers place hplace]

/-- **A file at a place that is not looked at leaves the file of the configuration as it was.** -/
theorem sameFile_of_filedAt {layer : Config}
    (hlayer : fileLayer before userDirectory options = .ok layer) :
    SameFile before after userDirectory options := by
  obtain ⟨file, hconsults, -⟩ := fileLayer_eq_ok_iff.mp hlayer
  cases hconsults with
  | named hnamed hfile =>
    exact .named hnamed (contentOf_eq_of_ofFile hfiled (hunread _ (.named hnamed)) hfile)
  | found hnone hplaces hothers hpath hfile =>
    have hothers' := exists_eq_false_of_filedAt hfiled hunread hnone hplaces hothers
    have hne := hunread _ (.usual hnone hplaces hothers)
    exact .found hnone hplaces (fun place hplace => ⟨hothers place hplace, hothers' place hplace⟩)
      hpath ((hfiled.exists_eq hne).trans hpath) (contentOf_eq_of_ofFile hfiled hne hfile)
  | absent hnone habsent =>
    have habsent' := exists_eq_false_of_filedAt hfiled hunread hnone (List.append_nil _).symm habsent
    exact .absent hnone fun place hplace => ⟨habsent place hplace, habsent' place hplace⟩

end Filed

/-- The selections of a configuration follow links if it does. -/
theorem followLinks_of_make {extensions patterns : List String} {followLinks : Bool}
    {selection : Selection} (h : Selection.make extensions patterns followLinks = .ok selection) :
    selection.followLinks = followLinks := by
  obtain ⟨globs, -, rfl⟩ := map_eq_ok_iff.mp h
  rfl

end Config

/-! ## The report -/

namespace Report

/-- The log with another identifier and other times. -/
def Log.restamp (log : Log) (guid : Uuid) (started finished : Timestamp) : Log :=
  { log with
    runs := log.runs.map fun run =>
      { run with
        guid
        invocations := run.invocations.map fun invocation =>
          { invocation with started, finished } } }

/-- The logs of runs that found the same differ in their identifiers and times. -/
theorem Log.ofRun_restamp {run other : Run} {guid : Uuid} {log : Log} (guid' : Uuid)
    (hset : other.ruleSet = run.ruleSet)
    (hdiagnostics : other.results.diagnostics = run.results.diagnostics)
    (hunreadable : other.results.unreadableFiles = run.results.unreadableFiles)
    (h : Log.ofRun run guid = .ok log) :
    Log.ofRun other guid' = .ok (log.restamp guid' other.started other.finished) := by
  unfold Log.ofRun strayDiagnostic? at h ⊢
  rw [hset, hdiagnostics, hunreadable]
  split at h
  · cases h
  · obtain rfl := Except.ok.inj h
    rfl

end Report

/-! ## The run -/

namespace Program

variable {input again : Input} {first second : Course} {options : Options} {config : Config}

/-- No one interrupts the run.  Its scan comes to what a scan can come to in some order, its
examination fails where that of a run that is left alone does, and its report is written as the tree
has it. -/
structure Course.Uninterrupted [WideDecoders] (input : Input) (course : Course) : Prop where
  scanned : ∀ {options config run notices}, options.errorLog = none →
    course.examine options config = .ok (run, notices) →
    ∃ settings, Program.settings config input.processors = .ok settings ∧
      Scan.Scans input.files settings (.ofString options.root) run
  failed : ∀ {options config failure}, course.examine options config = .error failure →
    ∃ fault, Program.examine input options config = .error fault
  written : course.write = input.files.writeFile

/-- The place is none that the run reads: its walks do not list it, and no path under which it looks
for a configuration leads there. -/
structure Aside (input : Input) (options : Options) (config : Config) (place : List EntryName) :
    Prop where
  documents : ∀ selection, config.documentSelection = .ok selection →
    Discovery.Unlisted input.files selection (.ofString options.root) place
  scripts : ∀ selection, config.scriptSelection = .ok selection →
    Discovery.Unlisted input.files selection (.ofString options.root) place
  unread : ∀ path,
    Config.LooksUp input.files (Config.userDirectory? input.environment) options path →
    ∀ node, input.files.place path ≠ .ok ⟨place, node⟩

/-- The second run tells what the first did: the same files, statuses, findings and number of
scripts, and a report that differs in its identifier and its times alone.  Both reports are the text
of a log and a line feed. -/
structure Repeats (input again : Input) (options : Options) (config : Config)
    (first second : Course) : Prop where
  code : (runAlong again second).code = (runAlong input first).code
  configuration : Program.configuration again options = .ok config
  results : ∃ run notices run' notices' log,
    first.examine options config = .ok (run, notices) ∧
    second.examine options config = .ok (run', notices') ∧
    Scan.Summary.ofRun run' = Scan.Summary.ofRun run ∧
    Report.Log.ofRun run input.guid = .ok log ∧
    (runAlong input first).report =
      some (config.report, log.toText.toUTF8.toList ++ [0x0A]) ∧
    (runAlong again second).report =
      some (config.report,
        (log.restamp again.guid run'.started run'.finished).toText.toUTF8.toList ++ [0x0A])

theorem settings_eq_ok {processors : Nat} {settings : Scan.Settings}
    (h : Program.settings config processors = .ok settings) :
    config.documentSelection = .ok settings.documents ∧
      config.scriptSelection = .ok settings.scripts := by
  unfold Program.settings at h
  split at h
  · rename_i documents scripts hdocuments hscripts
    obtain rfl := Except.ok.inj h
    exact ⟨hdocuments, hscripts⟩
  · cases h
  · cases h

/-- A run asks for no more permits than there can be, unless there are more processors than that. -/
theorem limit_le_maxPermits {settings : Scan.Settings}
    (hprocessors : input.processors ≤ Pool.maxPermits)
    (hconfig : configuration input options = .ok config)
    (hsettings : Program.settings config input.processors = .ok settings) :
    max 1 settings.limit ≤ Pool.maxPermits := by
  have hthreads := (Config.valid_of_load hconfig).threads
  have hmost : 1000 ≤ Pool.maxPermits := by decide
  unfold Program.settings at hsettings
  split at hsettings
  · obtain rfl := Except.ok.inj hsettings
    dsimp only
    cases hcount : config.threads with
    | none =>
      rw [Option.getD_none]
      omega
    | some count =>
      have hbound := hthreads count hcount
      rw [Option.getD_some]
      omega
  · cases hsettings
  · cases hsettings

/-- A run that is left alone is not interrupted. -/
theorem uninterrupted_undisturbed [WideDecoders] (input : Input) :
    (Course.undisturbed input).Uninterrupted input := by
  constructor
  case scanned =>
    intro options config run notices hlog hrun
    simp only [Course.undisturbed, examine, hlog, bind_eq_ok_iff] at hrun
    obtain ⟨settings, hsettings, found, hfound, hrun⟩ := hrun
    obtain ⟨rfl, -⟩ := Prod.mk.inj (Except.ok.inj hrun)
    exact ⟨settings, hsettings, Scan.scans_of_run (fun _ => rfl) hfound⟩
  case failed => exact fun hfailure => ⟨_, hfailure⟩
  case written => rfl

section Again

variable {files : FileSystem} {content : List UInt8} {clock : Scan.Clock} {guid : Uuid}
  (hwrite : input.files.writeFile config.report content = .ok files)
  (haside : ∀ place, input.files.place config.report = .ok place →
    Aside input options config place.names)

include hwrite haside

/-- The configuration is the same after the report is written. -/
theorem configuration_again (hconfig : configuration input options = .ok config) :
    configuration { input with files, clock, guid } options = .ok config := by
  obtain ⟨-, -, place, hplace, -, ⟨hnode, rfl⟩ | ⟨-, rfl⟩⟩ := writeFile_eq_ok_iff.mp hwrite
  · have hfiled := filedAt_replace hplace hnode content
    unfold configuration Config.load at hconfig ⊢
    obtain ⟨layer, hlayer, hrest⟩ := bind_eq_ok_iff.mp hconfig
    have hsame := Config.sameFile_of_filedAt hfiled (haside place hplace).unread hlayer
    exact bind_eq_ok_iff.mpr ⟨layer, (Config.fileLayer_congr hsame).trans hlayer, hrest⟩
  · exact hconfig

/-- **What a scan comes to is the same after the report is written.** -/
theorem summary_again [WideDecoders]
    (hproper : input.files.root.Proper) (hlinks : config.followLinks = false)
    {processors : Nat} {settings : Scan.Settings}
    (hsettings : Program.settings config processors = .ok settings) {run : Run}
    (hscans : Scan.Scans input.files settings (.ofString options.root) run) :
    Scan.reference files settings.documents settings.scripts (.ofString options.root) =
      .ok (Scan.Summary.ofRun run) := by
  obtain ⟨hdocuments, hscripts⟩ := settings_eq_ok hsettings
  obtain ⟨names, entries, hroot⟩ := Scan.exists_root_of_scans hproper hscans
  rw [← Scan.reference_eq_of_scans hproper hscans]
  refine Scan.reference_eq_of_writeFile ?_ ?_ hproper hroot hwrite ?_
  · rw [Config.followLinks_of_make hdocuments, hlinks]
  · rw [Config.followLinks_of_make hscripts, hlinks]
  · intro place hplace
    exact ⟨(haside place hplace).documents _ hdocuments, (haside place hplace).scripts _ hscripts⟩

end Again

/-- A run that no one interrupts can examine what the reference can, and comes to the same. -/
theorem Course.Uninterrupted.exists_examine [WideDecoders]
    {course : Course} (h : course.Uninterrupted input)
    (hscan : options.errorLog = none) {settings : Scan.Settings}
    (hsettings : Program.settings config input.processors = .ok settings)
    (hproper : input.files.root.Proper) {summary : Scan.Summary}
    (hreference : Scan.reference input.files settings.documents settings.scripts
      (.ofString options.root) = .ok summary) :
    ∃ run notices, course.examine options config = .ok (run, notices) ∧
      Scan.Scans input.files settings (.ofString options.root) run ∧
      Scan.Summary.ofRun run = summary := by
  cases hexamine : course.examine options config with
  | error failure =>
    obtain ⟨hdocuments, hscripts⟩ := settings_eq_ok hsettings
    obtain ⟨found, hfound, -⟩ := bind_eq_ok_iff.mp hreference
    obtain ⟨-, ⟨fault, hfault | hfault⟩ | hroot⟩ | ⟨log, errno, hlog, -⟩ :=
      examine_eq_error_iff.mp (h.failed hexamine)
    · cases hdocuments.symm.trans hfault
    · cases hscripts.symm.trans hfault
    · obtain ⟨fault, hfault⟩ :=
        (Discovery.discover_eq_error_iff input.files settings.documents _).mpr hroot
      cases hfound.symm.trans hfault
    · cases hscan.symm.trans hlog
  | ok found =>
    obtain ⟨settings', hsettings', hscans⟩ := h.scanned hscan hexamine
    obtain rfl := Except.ok.inj (hsettings.symm.trans hsettings')
    have hsummary := (Scan.reference_eq_of_scans hproper hscans).symm.trans hreference
    exact ⟨found.1, found.2, rfl, hscans, Except.ok.inj hsummary⟩

/-- What a run that is completed comes to. -/
theorem runAlong_of_complete {course : Course} {completion : Completion}
    (hcompletion : complete input course options config = .ok completion)
    (hconfig : configuration input options = .ok config)
    (hparse : CommandLine.parse input.arguments = .ok options) (hthreads : options.threads ≠ some 0) :
    (runAlong input course).code = completion.run.exitCode ∧
      (runAlong input course).report = some (config.report, completion.report) := by
  obtain ⟨text, -, hnone | ⟨error, herror⟩ | ⟨other, failure, hother, hfailure⟩⟩ |
    ⟨other, found, -, hother, hfound, hcode, hreport, -⟩ := runAlong_cases course hparse
  · exact absurd hnone hthreads
  · cases hconfig.symm.trans herror
  · obtain rfl := Except.ok.inj (hconfig.symm.trans hother)
    cases hcompletion.symm.trans hfailure
  · obtain rfl := Except.ok.inj (hconfig.symm.trans hother)
    obtain rfl := Except.ok.inj (hcompletion.symm.trans hfound)
    exact ⟨hcode, hreport⟩

/-- **A run done again tells the same.**  Let a run that no one interrupts scan a proper tree, follow
no links, and end with no error of its own; and let the place to which its report goes, any link
followed, be none that it reads.  Then a run in the tree that it leaves, at another time and under
another identifier, ends in the same way, finds the same files, statuses, findings and number of
scripts, and writes the same report but for the identifier and the times.  It does not matter
whether the report was there before, nor in which order directories list their entries and tasks
take their steps. -/
theorem runAlong_again [WideDecoders] {clock : Scan.Clock} {guid : Uuid}
    (hparse : CommandLine.parse input.arguments = .ok options) (hscan : options.errorLog = none)
    (hproper : input.files.root.Proper) (hfirst : first.Uninterrupted input)
    (hcode : (runAlong input first).code = 0 ∨ (runAlong input first).code = 1)
    (hconfig : configuration input options = .ok config) (hlinks : config.followLinks = false)
    (haside : ∀ place, input.files.place config.report = .ok place →
      Aside input options config place.names)
    (hagain : again = { input with files := (runAlong input first).files, clock, guid })
    (hsecond : second.Uninterrupted again) :
    Repeats input again options config first second := by
  obtain ⟨text, hrun, -⟩ | ⟨config', completion, hthreads, hconfig', hcompletion, hexit, hreport,
    hfiles⟩ := runAlong_cases first hparse
  · rw [hrun, refuse, Failure.exitCode] at hcode
    simp at hcode
  obtain rfl := Except.ok.inj (hconfig.symm.trans hconfig')
  obtain ⟨run, notices, log, files, hexamine, hlog, hwrite, rfl⟩ := complete_eq_ok_iff.mp hcompletion
  rw [hfirst.written] at hwrite
  obtain rfl : again = { input with files, clock, guid } := by rw [hagain, hfiles]
  obtain ⟨settings, hsettings, hscans⟩ := hfirst.scanned hscan hexamine
  -- the scan of the tree that is left comes to the same, and can be reported and written
  obtain ⟨run', notices', hexamine', hscans', hsummary⟩ :=
    hsecond.exists_examine hscan hsettings (proper_of_writeFile hproper hwrite)
      (summary_again hwrite haside hproper hlinks hsettings hscans)
  have hset : run'.ruleSet = run.ruleSet := by
    rw [Scan.ruleSet_of_scans hscans, Scan.ruleSet_of_scans hscans']
  have hlog' := Report.Log.ofRun_restamp guid hset (congrArg Scan.Summary.diagnostics hsummary)
    (Scan.unreadableFiles_eq_of_scans hscans hscans' hsummary) hlog
  obtain ⟨final, hwrite'⟩ := exists_writeFile_again hwrite
    (reportOf (log.restamp guid run'.started run'.finished))
  have hconfig'' : configuration { input with files, clock, guid } options = .ok config :=
    configuration_again hwrite haside hconfig
  have hcompletion' : complete { input with files, clock, guid } second options config =
      .ok ⟨run', notices', reportOf (log.restamp guid run'.started run'.finished), final⟩ :=
    complete_eq_ok_iff.mpr
      ⟨run', notices', _, final, hexamine', hlog', hsecond.written ▸ hwrite', rfl⟩
  obtain ⟨hexit', hreport'⟩ := runAlong_of_complete hcompletion' hconfig'' hparse hthreads
  rw [reportOf_eq] at hreport hreport'
  refine ⟨?_, hconfig'', run, notices, run', notices', log, hexamine, hexamine', hsummary, hlog,
    hreport, hreport'⟩
  rw [hexit, hexit']
  exact congrArg Scan.Summary.exitCode hsummary

/-- A tree with a document and a script. -/
def tidyTree : FileSystem :=
  ⟨.directory [("a.xml".toUTF8.toList, .file "<Application/>".toUTF8.toList),
    ("b.bsh".toUTF8.toList, .file [])], [], []⟩

/-- The tree is scanned, and the report is to lie beside the document. -/
def tidyInput : Input where
  files := tidyTree
  environment := []
  arguments := ["--output", "out.sarif"]
  processors := 1
  clock := { started := ⟨0, 0⟩, finished := ⟨0, 0⟩ }
  guid := Report.nilUuid

/-- What the command line asks for. -/
def tidyOptions : Options := { output := some "out.sarif" }

/-- The configuration that comes of it. -/
def tidyConfig : Config := { report := .ofString "out.sarif" }

theorem parse_tidyInput : CommandLine.parse tidyInput.arguments = .ok tidyOptions := by cbv

theorem configuration_tidyInput : configuration tidyInput tidyOptions = .ok tidyConfig := by cbv

theorem place_report_tidyTree :
    tidyTree.place tidyConfig.report = .ok ⟨["out.sarif".toUTF8.toList], none⟩ := by cbv

theorem lookup_root_tidyTree : tidyTree.lookup (.ofString ".") = .ok ([], tidyTree.root) := by cbv

theorem proper_tidyTree : tidyTree.root.Proper := by decide +kernel

/-- No usual place of a configuration is that of the report. -/
theorem place_candidate_tidyTree {path : Path}
    (hpath : path ∈ Config.candidates (.ofString ".") none) :
    ∃ name, name ≠ "out.sarif".toUTF8.toList ∧ tidyTree.place path = .ok ⟨[name], none⟩ := by
  simp only [Config.candidates, Config.fileNames, Option.map_none, Option.toList_none,
    List.flatMap_cons, List.flatMap_nil, List.append_nil, List.map_cons, List.map_nil,
    List.mem_cons, List.not_mem_nil, or_false] at hpath
  rcases hpath with rfl | rfl | rfl | rfl
  · exact ⟨"ig-scan.toml".toUTF8.toList, by decide +kernel, by cbv⟩
  · exact ⟨"ig-scan.json".toUTF8.toList, by decide +kernel, by cbv⟩
  · exact ⟨".ig-scan.toml".toUTF8.toList, by decide +kernel, by cbv⟩
  · exact ⟨".ig-scan.json".toUTF8.toList, by decide +kernel, by cbv⟩

theorem aside_tidyInput : Aside tidyInput tidyOptions tidyConfig ["out.sarif".toUTF8.toList] := by
  have hunlisted : ∀ extension, extension = "xml" ∨ extension = "bsh" →
      Discovery.Unlisted tidyTree ⟨[Selection.normalExtension extension], [], false⟩
        (.ofString ".") ["out.sarif".toUTF8.toList] := by
    intro extension hextension start node below hlookup hnames
    obtain ⟨rfl, -⟩ := Prod.mk.inj (Except.ok.inj (lookup_root_tidyTree.symm.trans hlookup))
    obtain rfl : ["out.sarif".toUTF8.toList] = below := hnames
    rcases hextension with rfl | rfl <;> decide +kernel
  constructor
  case documents =>
    intro selection hselection
    exact Except.ok.inj hselection ▸ hunlisted "xml" (.inl rfl)
  case scripts =>
    intro selection hselection
    exact Except.ok.inj hselection ▸ hunlisted "bsh" (.inr rfl)
  case unread =>
    intro path hlooks node hplace
    cases hlooks with
    | named hnamed => cases hnamed
    | usual _ hplaces _ =>
      have hmem : path ∈ Config.candidates (.ofString ".") none := by
        have hsplit : Config.candidates (.ofString ".") none = _ := hplaces
        rw [hsplit]
        exact List.mem_append_right _ List.mem_cons_self
      obtain ⟨name, hne, hother⟩ := place_candidate_tidyTree hmem
      have hnames := congrArg Place.names (Except.ok.inj (hplace.symm.trans hother))
      exact hne (List.singleton_injective hnames).symm

attribute [local instance] WideDecoders.asciiOnly

/-- Nothing keeps the run from being completed. -/
theorem code_run_tidyInput : (run tidyInput).code = 0 ∨ (run tidyInput).code = 1 := by
  have hfree : ¬ Hindrance tidyInput tidyOptions := by
    intro h
    cases h with
    | threads h | log _ h _ => cases h
    | configuration h => cases configuration_tidyInput.symm.trans h
    | pattern h _ hfault =>
      obtain rfl := Except.ok.inj (configuration_tidyInput.symm.trans h)
      rcases hfault with hfault | hfault <;> cases hfault
    | root _ _ hnone => exact hnone _ _ ⟨lookup_root_tidyTree, rfl⟩
    | report h hfault =>
      obtain rfl := Except.ok.inj (configuration_tidyInput.symm.trans h)
      have hnothing : FileOrNothing none := by simp [FileOrNothing]
      have hwrite : tidyTree.writeFile tidyConfig.report [] =
          .ok (tidyTree.replace ["out.sarif".toUTF8.toList] (some (.file []))) :=
        writeFile_eq_ok_iff.mpr ⟨by decide +kernel, by decide +kernel, _, place_report_tidyTree,
          rfl, .inl ⟨hnothing, rfl⟩⟩
      cases hwrite.symm.trans (hfault [])
  have heffect := effect_runAlong (possible_undisturbed tidyInput) parse_tidyInput
  obtain ⟨-, -, -, -, -, -, -, -, -, ⟨hone, -⟩ | ⟨hzero, -⟩⟩ :=
    heffect.reported fun hcode => hfree ((code_run_iff parse_tidyInput).mp hcode)
  · exact .inr hone
  · exact .inl hzero

theorem runAlong_again_tidyInput :
    let again : Input :=
      { tidyInput with
        files := (run tidyInput).files
        clock := { started := ⟨1, 0⟩, finished := ⟨2, 0⟩ } }
    ((run tidyInput).code = 0 ∨ (run tidyInput).code = 1) ∧
      Aside tidyInput tidyOptions tidyConfig ["out.sarif".toUTF8.toList] ∧
      Repeats tidyInput again tidyOptions tidyConfig (.undisturbed tidyInput)
        (.undisturbed again) := by
  intro again
  refine ⟨code_run_tidyInput, aside_tidyInput, ?_⟩
  refine runAlong_again parse_tidyInput rfl proper_tidyTree (uninterrupted_undisturbed tidyInput)
    code_run_tidyInput configuration_tidyInput rfl ?_ rfl (uninterrupted_undisturbed again)
  intro place hplace
  obtain rfl := Except.ok.inj (place_report_tidyTree.symm.trans hplace)
  exact aside_tidyInput

end Program

end FormsAudit
