import FormsAudit.Config.Load
import FormsAudit.Proofs.Fallible
import FormsAudit.Proofs.Text.Numeral
import Mathlib

/-!
# Which layer decides a setting

A configuration is loaded by laying the environment over a file and the command line over both, each
with a function of its own and each with its own way to say that a setting is left open.  `compose`
says of every setting, by itself, which layer decides it, and what is loaded is what it says
(`load_eq_ok_iff_compose`).

The three parts of that are `fileLayer_eq_ok_iff`, what the file gives, `withEnvironment_eq_ok_iff`,
what the environment gives, and `validated_eq_ok_iff`, what may be meant at all; that the layers one
over the other are the composition is `withOptions_withOverrides`.
-/

namespace FormsAudit.Config

/-! ## What may be meant -/

/-- A file can have the extension, which may be written with dots before it. -/
def IsExtension (extension : String) : Prop :=
  ∃ dots name, extension.toList = dots ++ name ∧ (∀ c ∈ dots, c = '.') ∧
    ∀ c ∈ name, c ≠ '.' ∧ c ≠ '/' ∧ c ≠ '\\'

/-- A run can have the configuration. -/
structure Valid (config : Config) : Prop where
  threads : ∀ count, config.threads = some count → 1 ≤ count ∧ count ≤ 1000
  loudness : ¬ (config.verbose = true ∧ config.quiet = true)
  report : config.report.bytes ≠ []
  xmlExtensions : config.xmlExtensions ≠ [] ∧
    ∀ extension ∈ config.xmlExtensions, IsExtension extension
  scriptExtensions : config.scriptExtensions ≠ [] ∧
    ∀ extension ∈ config.scriptExtensions, IsExtension extension

theorem isBadExtension_eq_false_iff {extension : String} :
    isBadExtension extension = false ↔ IsExtension extension := by
  set chars := extension.toList with hchars
  have hsplit : chars.takeWhile (· = '.') ++ chars.dropWhile (· = '.') = chars :=
    List.takeWhile_append_dropWhile
  constructor
  · intro h
    simp only [isBadExtension, ← hchars, Bool.or_eq_false_iff, List.contains_eq_mem,
      decide_eq_false_iff_not] at h
    obtain ⟨⟨hslash, hbackslash⟩, hdot⟩ := h
    refine ⟨_, _, hsplit.symm, ?_, ?_⟩
    · intro c hc
      simpa using List.mem_takeWhile_imp hc
    · intro c hc
      have hmem := (List.dropWhile_sublist (· = '.')).subset hc
      exact ⟨fun h => hdot (h ▸ hc), fun h => hslash (h ▸ hmem), fun h => hbackslash (h ▸ hmem)⟩
  · rintro ⟨dots, name, htext, hdots, hname⟩
    rw [← hchars] at htext
    have hdrop : chars.dropWhile (· = '.') = name.dropWhile (· = '.') := by
      rw [htext, List.dropWhile_append_of_pos (by simpa using hdots)]
    have hmem : ∀ c ∈ chars, c ≠ '/' ∧ c ≠ '\\' := by
      intro c hc
      rcases List.mem_append.mp (htext ▸ hc) with hc | hc
      · rw [hdots c hc]
        decide
      · exact (hname c hc).2
    simp only [isBadExtension, ← hchars, Bool.or_eq_false_iff, List.contains_eq_mem,
      decide_eq_false_iff_not, hdrop]
    refine ⟨⟨fun h => (hmem _ h).1 rfl, fun h => (hmem _ h).2 rfl⟩, fun h => ?_⟩
    exact (hname _ ((List.dropWhile_sublist _).subset h)).1 rfl

theorem extensionDefect?_eq_none_iff {empty : Defect} {extensions : List String} :
    extensionDefect? empty extensions = none ↔
      extensions ≠ [] ∧ ∀ extension ∈ extensions, IsExtension extension := by
  unfold extensionDefect?
  cases extensions with
  | nil => simp
  | cons first rest =>
    simp only [List.isEmpty_cons, Bool.false_eq_true, if_false, Option.map_eq_none_iff,
      List.find?_eq_none, Bool.not_eq_true, isBadExtension_eq_false_iff, ne_eq, reduceCtorEq,
      not_false_eq_true, true_and]

theorem defect?_eq_none_iff {config : Config} : config.defect? = none ↔ config.Valid := by
  unfold defect?
  constructor
  · intro h
    split_ifs at h with hzero hmany hloud hreport
    rw [Option.or_eq_none_iff, extensionDefect?_eq_none_iff, extensionDefect?_eq_none_iff] at h
    refine ⟨?_, by simpa using hloud, by simpa [Path.isEmpty] using hreport, h.1, h.2⟩
    intro count hcount
    simp only [hcount, Option.some.injEq, Option.any_some, decide_eq_true_eq] at hzero hmany
    omega
  · rintro ⟨hthreads, hloud, hreport, hxml, hscript⟩
    have hzero : config.threads ≠ some 0 := fun h => absurd (hthreads 0 h).1 (by decide)
    have hmany : config.threads.any (1000 < ·) = false := by
      cases hcount : config.threads with
      | none => rfl
      | some count => simpa using (hthreads count hcount).2
    rw [if_neg hzero, if_neg (by simp [hmany]), if_neg (by simpa using hloud),
      if_neg (by simpa [Path.isEmpty] using hreport), Option.or_eq_none_iff,
      extensionDefect?_eq_none_iff, extensionDefect?_eq_none_iff]
    exact ⟨hxml, hscript⟩

theorem validated_eq_ok_iff {config found : Config} :
    config.validated = .ok found ↔ found = config ∧ config.Valid := by
  rw [validated, ← defect?_eq_none_iff]
  cases config.defect? <;> simp [eq_comm]

/-! ## What the file gives -/

/-- The file that is chosen gives the configuration, or there is no file.  One that is named is
chosen, whatever else there is; otherwise it is the first that is there of the usual places. -/
inductive Consults (fs : FileSystem) (userDirectory : Option Path) (options : Options) :
    Option Config → Prop
  | named {name : String} {config : Config} : options.config = some name →
      ofFile fs (.ofString name) = .ok config → Consults fs userDirectory options (some config)
  | found {before after : List Path} {path : Path} {config : Config} : options.config = none →
      candidates (.ofString options.root) userDirectory = before ++ path :: after →
      (∀ other ∈ before, fs.exists other = false) → fs.exists path = true →
      ofFile fs path = .ok config → Consults fs userDirectory options (some config)
  | absent : options.config = none →
      (∀ path ∈ candidates (.ofString options.root) userDirectory, fs.exists path = false) →
      Consults fs userDirectory options none

section File

variable {fs other : FileSystem} {userDirectory : Option Path} {options : Options}

theorem findFile?_eq_some_iff {root path : Path} :
    findFile? fs root userDirectory = some path ↔ ∃ before after,
      candidates root userDirectory = before ++ path :: after ∧
        (∀ place ∈ before, fs.exists place = false) ∧ fs.exists path = true := by
  rw [findFile?, List.find?_eq_some_iff_append]
  constructor
  · rintro ⟨hpath, before, after, hplaces, hbefore⟩
    exact ⟨before, after, hplaces, by simpa using hbefore, hpath⟩
  · rintro ⟨before, after, hplaces, hbefore, hpath⟩
    exact ⟨hpath, before, after, hplaces, by simpa using hbefore⟩

theorem findFile?_eq_none_iff {root : Path} :
    findFile? fs root userDirectory = none ↔
      ∀ place ∈ candidates root userDirectory, fs.exists place = false := by
  simp [findFile?]

theorem fileLayer_eq_ok_iff {layer : Config} :
    fileLayer fs userDirectory options = .ok layer ↔
      ∃ file, Consults fs userDirectory options file ∧ layer = (file.map (merge {})).getD {} := by
  unfold fileLayer chosenFile?
  constructor
  · intro h
    cases hnamed : options.config with
    | some name =>
      rw [hnamed] at h
      obtain ⟨config, hfile, rfl⟩ := map_eq_ok_iff.mp h
      exact ⟨some config, .named hnamed hfile, rfl⟩
    | none =>
      rw [hnamed] at h
      dsimp only at h
      cases hfound : findFile? fs (.ofString options.root) userDirectory with
      | none =>
        rw [hfound] at h
        exact ⟨none, .absent hnamed (findFile?_eq_none_iff.mp hfound), (Except.ok.inj h).symm⟩
      | some path =>
        rw [hfound] at h
        obtain ⟨config, hfile, rfl⟩ := map_eq_ok_iff.mp h
        obtain ⟨before, after, hplaces, hbefore, hpath⟩ := findFile?_eq_some_iff.mp hfound
        exact ⟨some config, .found hnamed hplaces hbefore hpath hfile, rfl⟩
  · rintro ⟨file, hfile, rfl⟩
    cases hfile with
    | named hnamed hfile =>
      rw [hnamed]
      exact map_eq_ok_iff.mpr ⟨_, hfile, rfl⟩
    | found hnamed hplaces hbefore hpath hfile =>
      rw [hnamed]
      dsimp only
      rw [findFile?_eq_some_iff.mpr ⟨_, _, hplaces, hbefore, hpath⟩]
      exact map_eq_ok_iff.mpr ⟨_, hfile, rfl⟩
    | absent hnamed habsent =>
      rw [hnamed]
      dsimp only
      rw [findFile?_eq_none_iff.mpr habsent]
      rfl

/-- The two trees look the same to one who looks for the file: one that is named has the same
content in both, or else no usual place before the first file holds one in either, and that file has
the same content in both. -/
inductive SameFile (fs other : FileSystem) (userDirectory : Option Path) (options : Options) : Prop
  | named {name : String} : options.config = some name →
      other.contentOf (.ofString name) = fs.contentOf (.ofString name) →
      SameFile fs other userDirectory options
  | found {before after : List Path} {path : Path} : options.config = none →
      candidates (.ofString options.root) userDirectory = before ++ path :: after →
      (∀ place ∈ before, fs.exists place = false ∧ other.exists place = false) →
      fs.exists path = true → other.exists path = true →
      other.contentOf path = fs.contentOf path → SameFile fs other userDirectory options
  | absent : options.config = none →
      (∀ place ∈ candidates (.ofString options.root) userDirectory,
        fs.exists place = false ∧ other.exists place = false) →
      SameFile fs other userDirectory options

theorem ofFile_congr {path : Path} (h : other.contentOf path = fs.contentOf path) :
    ofFile other path = ofFile fs path := by
  unfold ofFile readText
  rw [h]

theorem fileLayer_congr (h : SameFile fs other userDirectory options) :
    fileLayer other userDirectory options = fileLayer fs userDirectory options := by
  unfold fileLayer chosenFile?
  cases h with
  | named hnamed hcontent =>
    rw [hnamed]
    exact congrArg (Except.map (merge {})) (ofFile_congr hcontent)
  | found hnamed hplaces hbefore hpath hpath' hcontent =>
    have hfound := findFile?_eq_some_iff.mpr
      ⟨_, _, hplaces, fun place hplace => (hbefore place hplace).1, hpath⟩
    have hfound' := findFile?_eq_some_iff.mpr
      ⟨_, _, hplaces, fun place hplace => (hbefore place hplace).2, hpath'⟩
    rw [hnamed]
    dsimp only
    rw [hfound, hfound']
    exact congrArg (Except.map (merge {})) (ofFile_congr hcontent)
  | absent hnamed habsent =>
    rw [hnamed]
    dsimp only
    rw [findFile?_eq_none_iff.mpr fun place hplace => (habsent place hplace).1,
      findFile?_eq_none_iff.mpr fun place hplace => (habsent place hplace).2]

end File

/-! ## What the environment gives -/

/-- What the environment sets. -/
structure Overrides where
  threads : Option Nat
  xmlExtensions : Option (List String)
  scriptExtensions : Option (List String)
  followLinks : Option Bool
  report : Option Path
  verbose : Option Bool
  quiet : Option Bool
  deriving DecidableEq, Repr

/-- The text is a numeral of the count, which is no larger than a machine word. -/
def IsCount (text : String) (count : Nat) : Prop :=
  count < 2 ^ 64 ∧ Numeral.WritesDecimal text.toList count

/-- The text is the word for the truth value. -/
def IsTruth (text : String) (value : Bool) : Prop :=
  text = if value then "true" else "false"

/-- The environment sets just this, and each variable that is set can be read. -/
structure Says (environment : Environment) (overrides : Overrides) : Prop where
  threads : Option.Rel IsCount (environment.lookup "IG_SCAN_THREADS") overrides.threads
  xmlExtensions : overrides.xmlExtensions =
    (environment.lookup "IG_SCAN_XML_EXTENSIONS").map splitList
  scriptExtensions : overrides.scriptExtensions =
    (environment.lookup "IG_SCAN_SCRIPT_EXTENSIONS").map splitList
  followLinks : Option.Rel IsTruth (environment.lookup "IG_SCAN_FOLLOW_SYMLINKS")
    overrides.followLinks
  report : overrides.report = (environment.lookup "IG_SCAN_OUTPUT").map Path.ofString
  verbose : Option.Rel IsTruth (environment.lookup "IG_SCAN_VERBOSE") overrides.verbose
  quiet : Option.Rel IsTruth (environment.lookup "IG_SCAN_QUIET") overrides.quiet

section Environment

variable {environment : Environment} {key : String}

theorem readBoolean_eq_ok_iff {setting : Option Bool} :
    readBoolean environment key = .ok setting ↔
      Option.Rel IsTruth (environment.lookup key) setting := by
  unfold readBoolean
  cases environment.lookup key with
  | none => cases setting <;> simp
  | some text =>
    by_cases htrue : text = "true"
    · subst htrue
      cases setting <;> simp [IsTruth]
    · by_cases hfalse : text = "false"
      · subst hfalse
        cases setting <;> simp [IsTruth]
      · cases setting with
        | none => simp
        | some value => cases value <;> simp [IsTruth, htrue, hfalse]

theorem readCount_eq_ok_iff {setting : Option Nat} :
    readCount environment key = .ok setting ↔
      Option.Rel IsCount (environment.lookup key) setting := by
  unfold readCount
  cases environment.lookup key with
  | none => cases setting <;> simp
  | some text =>
    have hbound : UInt64.size = 2 ^ 64 := rfl
    dsimp only
    rw [hbound]
    cases setting with
    | none => cases Numeral.readDecimal (2 ^ 64) text.toList <;> simp
    | some count =>
      rw [Option.rel_some_some, IsCount, ← Numeral.readDecimal_eq_ok_iff (by decide)]
      cases Numeral.readDecimal (2 ^ 64) text.toList <;> simp

/-- The configuration with what the environment sets over it. -/
def withOverrides (config : Config) (overrides : Overrides) : Config :=
  { config with
    threads := overrides.threads.or config.threads
    xmlExtensions := overrides.xmlExtensions.getD config.xmlExtensions
    scriptExtensions := overrides.scriptExtensions.getD config.scriptExtensions
    followLinks := overrides.followLinks.getD config.followLinks
    report := overrides.report.getD config.report
    verbose := overrides.verbose.getD config.verbose
    quiet := overrides.quiet.getD config.quiet }

theorem withEnvironment_eq_ok_iff {config found : Config} :
    config.withEnvironment environment = .ok found ↔
      ∃ overrides, Says environment overrides ∧ found = config.withOverrides overrides := by
  simp only [withEnvironment, bind_eq_ok_iff, readCount_eq_ok_iff, readBoolean_eq_ok_iff]
  constructor
  · rintro ⟨threads, hthreads, followLinks, hlinks, verbose, hverbose, quiet, hquiet, h⟩
    exact ⟨⟨threads, _, _, followLinks, _, verbose, quiet⟩,
      ⟨hthreads, rfl, rfl, hlinks, rfl, hverbose, hquiet⟩, (Except.ok.inj h).symm⟩
  · rintro ⟨⟨threads, _, _, followLinks, _, verbose, quiet⟩,
      ⟨hthreads, rfl, rfl, hlinks, rfl, hverbose, hquiet⟩, rfl⟩
    exact ⟨threads, hthreads, followLinks, hlinks, verbose, hverbose, quiet, hquiet, rfl⟩

end Environment

/-! ## The layers -/

/-- The loudness that the options choose, as verbose and quiet. -/
def loudness? (options : Options) : Option (Bool × Bool) :=
  if options.quiet then some (false, true)
  else if options.verbose || options.debug then some (true, false)
  else none

/-- The configuration with each setting taken from the first layer that gives it: the options, the
environment, the file, and what holds if none of them does.  A file gives no list of extensions by
giving an empty one. -/
def compose (options : Options) (overrides : Overrides) (file : Option Config) : Config where
  threads := options.threads <|> overrides.threads <|> file.bind (·.threads)
  xmlExtensions :=
    (options.xmlExtensions.map splitList <|> overrides.xmlExtensions <|>
      (file.map (·.xmlExtensions)).filter (· ≠ [])).getD ["xml"]
  scriptExtensions :=
    (options.scriptExtensions.map splitList <|> overrides.scriptExtensions <|>
      (file.map (·.scriptExtensions)).filter (· ≠ [])).getD ["bsh"]
  excludePatterns :=
    if options.exclude ≠ [] then options.exclude else (file.map (·.excludePatterns)).getD []
  followLinks :=
    options.followLinks || (overrides.followLinks <|> file.map (·.followLinks)).getD false
  report :=
    (options.output.map Path.ofString <|> overrides.report <|> file.map (·.report)).getD
      (.ofString "identity-governance.sarif")
  verbose :=
    ((loudness? options).map (·.1) <|> overrides.verbose <|> file.map (·.verbose)).getD false
  quiet :=
    ((loudness? options).map (·.2) <|> overrides.quiet <|> file.map (·.quiet)).getD false

/-- A list that is empty gives way. -/
theorem getD_filter_ne_nil (texts standard : List String) :
    ((some texts).filter (· ≠ [])).getD standard = if texts.isEmpty then standard else texts := by
  cases texts <;> rfl

/-- The layers one over the other are the composition. -/
theorem withOptions_withOverrides (options : Options) (overrides : Overrides)
    (file : Option Config) :
    (((file.map (merge {})).getD {}).withOverrides overrides).withOptions options =
      compose options overrides file := by
  simp only [withOptions, withOverrides, compose, Config.mk.injEq]
  refine ⟨?xml, ?script, ?exclude, ?links, ?threads, ?report, ?verbose, ?quiet⟩
  case xml =>
    cases options.xmlExtensions <;> cases overrides.xmlExtensions <;> cases file <;> try rfl
    exact (getD_filter_ne_nil _ _).symm
  case script =>
    cases options.scriptExtensions <;> cases overrides.scriptExtensions <;> cases file <;> try rfl
    exact (getD_filter_ne_nil _ _).symm
  case exclude =>
    cases options.exclude <;> cases file <;> simp [merge]
  case links =>
    cases overrides.followLinks <;> cases file <;> simp [merge]
  case threads =>
    cases options.threads <;> cases overrides.threads <;> cases file <;> simp [merge]
  case report =>
    cases options.output <;> cases overrides.report <;> cases file <;> rfl
  case verbose =>
    unfold loudness?
    cases options.quiet <;> cases options.verbose || options.debug <;>
      cases overrides.verbose <;> cases file <;> rfl
  case quiet =>
    unfold loudness?
    cases options.quiet <;> cases options.verbose || options.debug <;>
      cases overrides.quiet <;> cases file <;> rfl

/-- **A configuration is loaded if the file, the environment and the whole of it allow it, and each
setting is that of the first layer that gives it.**  Of the tree it matters only which of the usual
places hold a file, up to the first that does, and what this file holds; where a file is named, only
what that one holds. -/
theorem load_eq_ok_iff_compose (fs : FileSystem) (userDirectory : Option Path)
    (environment : Environment) (options : Options) :
    (∀ config, load fs userDirectory environment options = .ok config ↔
      ∃ file overrides, Consults fs userDirectory options file ∧ Says environment overrides ∧
        config = compose options overrides file ∧ config.Valid) ∧
    ∀ other, SameFile fs other userDirectory options →
      load other userDirectory environment options =
        load fs userDirectory environment options := by
  constructor
  · intro config
    simp only [load, bind_eq_ok_iff, fileLayer_eq_ok_iff, withEnvironment_eq_ok_iff,
      validated_eq_ok_iff]
    constructor
    · rintro ⟨_, ⟨file, hfile, rfl⟩, _, ⟨overrides, hsays, rfl⟩, rfl, hvalid⟩
      rw [withOptions_withOverrides] at hvalid ⊢
      exact ⟨file, overrides, hfile, hsays, rfl, hvalid⟩
    · rintro ⟨file, overrides, hfile, hsays, rfl, hvalid⟩
      refine ⟨_, ⟨file, hfile, rfl⟩, _, ⟨overrides, hsays, rfl⟩, ?_⟩
      rw [withOptions_withOverrides]
      exact ⟨rfl, hvalid⟩
  · intro other hsame
    rw [load, load, fileLayer_congr hsame]

/-- What is loaded can be the configuration of a run. -/
theorem valid_of_load {fs : FileSystem} {userDirectory : Option Path} {environment : Environment}
    {options : Options} {config : Config}
    (h : load fs userDirectory environment options = .ok config) : config.Valid := by
  simp only [load, bind_eq_ok_iff, validated_eq_ok_iff] at h
  obtain ⟨_, -, _, -, rfl, hvalid⟩ := h
  exact hvalid

/-- A file that leaves the documents open and asks for silence. -/
def quietFile : String :=
  "\x7b\"scan\": \x7b\"xml_extensions\": [], \"script_extensions\": [\"bean\"]\x7d, " ++
    "\"output\": \x7b\"quiet\": true\x7d\x7d"

/-- Variables that set what the file sets otherwise or not at all. -/
def loudEnvironment : Environment :=
  [("IG_SCAN_THREADS", "+5"), ("IG_SCAN_XML_EXTENSIONS", "xml, xhtml,,"),
    ("IG_SCAN_VERBOSE", "false")]

/-- The file is found in second place.  A third one makes no difference. -/
theorem load_eq_ok_iff_compose_layered :
    let file := (("ig-scan.json".toUTF8.toList, .file quietFile.toUTF8.toList) : EntryName × Node)
    let other := ((".ig-scan.toml".toUTF8.toList, .file []) : EntryName × Node)
    let options : Options := { root := "/", threads := some 2, exclude := ["tmp/**"] }
    load ⟨.directory [file], [], []⟩ none loudEnvironment options =
        .ok
          { xmlExtensions := ["xml", "xhtml"]
            scriptExtensions := ["bean"]
            excludePatterns := ["tmp/**"]
            threads := some 2
            quiet := true } ∧
      load ⟨.directory [file, other], [], []⟩ none loudEnvironment options =
        load ⟨.directory [file], [], []⟩ none loudEnvironment options := by
  intro file other options
  have hplaces : candidates (.ofString options.root) none =
      [.ofString "/ig-scan.toml"] ++ .ofString "/ig-scan.json" ::
        [.ofString "/.ig-scan.toml", .ofString "/.ig-scan.json"] := by decide +kernel
  have hcontent : ∀ content others, FileSystem.contentOf
      ⟨.directory (("ig-scan.json".toUTF8.toList, .file content) :: others), [], []⟩
      (.ofString "/ig-scan.json") = .ok content := by
    intro content others
    cbv
  have hexists : ∀ content others, FileSystem.exists
      ⟨.directory (("ig-scan.json".toUTF8.toList, .file content) :: others), [], []⟩
      (.ofString "/ig-scan.json") = true := by
    intro content others
    cbv
  have habsent : ∀ content, FileSystem.exists
      ⟨.directory [("ig-scan.json".toUTF8.toList, .file content)], [], []⟩
      (.ofString "/ig-scan.toml") = false := by
    intro content
    cbv
  have habsent' : ∀ content, FileSystem.exists
      ⟨.directory [("ig-scan.json".toUTF8.toList, .file content), other], [], []⟩
      (.ofString "/ig-scan.toml") = false := by
    intro content
    cbv
  have hfile : ofFile ⟨.directory [file], [], []⟩ (.ofString "/ig-scan.json") =
      .ok { xmlExtensions := [], scriptExtensions := ["bean"], quiet := true } := by
    rw [ofFile, readText, hcontent]
    decide +kernel
  have hsays : Says loudEnvironment
      ⟨some 5, some ["xml", "xhtml"], none, none, none, some false, none⟩ := by
    constructor
    case threads =>
      have hdigits : Numeral.Writes 10 ['5'] 5 := by decide
      exact .some ⟨by decide, ['5'], .inr rfl, hdigits⟩
    case verbose => exact .some rfl
    case xmlExtensions => decide +kernel
    case followLinks | quiet => exact .none
    case scriptExtensions | report => rfl
  obtain ⟨hload, hcongr⟩ :=
    load_eq_ok_iff_compose ⟨.directory [file], [], []⟩ none loudEnvironment options
  constructor
  · refine (hload _).mpr ⟨_, _, .found rfl hplaces ?_ (hexists _ _) hfile, hsays, rfl, ?_⟩
    · exact List.forall_mem_singleton.mpr (habsent _)
    · exact defect?_eq_none_iff.mp (by decide +kernel)
  · refine hcongr _ (.found rfl hplaces ?_ (hexists _ _) (hexists _ _) ?_)
    · exact List.forall_mem_singleton.mpr ⟨habsent _, habsent' _⟩
    · rw [hcontent, hcontent]

/-- The settings of `quietFile` in the notation of tables. -/
def quietTable : String :=
  "[scan]\nxml_extensions = []\nscript_extensions = [ 'bean' ] # scripts\n\n" ++
    "[output]\nquiet = true\n"

/-- A file in the notation of tables gives the same settings, wherever it lies. -/
theorem ofFile_quietTable {fs : FileSystem} {path : Path}
    (hextension : path.extension? = some "toml".toUTF8.toList)
    (hcontent : fs.contentOf path = .ok quietTable.toUTF8.toList) :
    ofFile fs path =
      .ok { xmlExtensions := [], scriptExtensions := ["bean"], quiet := true } := by
  have htext : Utf8.decode? quietTable.toUTF8.toList = some quietTable.toList := by decide +kernel
  have hname : Utf8.decode? "toml".toUTF8.toList = some "toml".toList := by decide +kernel
  rw [ofFile, readText, hcontent, hextension]
  dsimp only
  rw [htext, Option.bind_some, hname]
  decide +kernel

/-- Of the usual names the one for a table comes first. -/
example :
    Consults
      ⟨.directory [("ig-scan.json".toUTF8.toList, .file []),
        ("ig-scan.toml".toUTF8.toList, .file quietTable.toUTF8.toList)], [], []⟩
      none { root := "/" }
      (some { xmlExtensions := [], scriptExtensions := ["bean"], quiet := true }) := by
  have hplaces : candidates (.ofString "/") none =
      [] ++ .ofString "/ig-scan.toml" ::
        [.ofString "/ig-scan.json", .ofString "/.ig-scan.toml", .ofString "/.ig-scan.json"] := by
    decide +kernel
  exact .found rfl hplaces (by simp) (by cbv) (ofFile_quietTable (by decide +kernel) (by cbv))

end FormsAudit.Config
