import GridGame.Command
import GridGame.Proofs.Success

/-!
# Files that commands write

A command reads files, and at most one of them is written: a build that comes to its end writes the
program to the path that is asked for (`only_finished_programs_written`). Everything that can go
wrong with a program goes wrong before, and checking it finds the same. That includes settings next
to the document which are there and cannot be read: they are not taken for absent (`Selects`).

Files are named by paths, and many paths lead to the same place. Writing a file changes neither a
directory nor a link nor what the system refuses, so every path leads where it led before
(`locate_put_eq_ok`).
-/

namespace GridGame

/-- A path without a slash at its end is kept. -/
lemma Path.trimSlashes_eq_self {path : String} (h : path.endsWith "/" = false) :
    trimSlashes path = path := by
  have hlast : ¬ ['/'] <:+ path.toList := by
    rw [String.endsWith_eq_endsWith_toSlice, String.Slice.endsWith_string_eq_false_iff] at h
    simpa using h
  unfold trimSlashes
  cases hreverse : path.toList.reverse with
  | nil => rfl
  | cons c rest =>
    have hc : c ≠ '/' := by
      rintro rfl
      apply hlast
      rw [← List.reverse_prefix, hreverse]
      simp
    rw [List.dropWhile_cons_of_neg (by simpa using hc)]
    show String.ofList (c :: rest).reverse = path
    rw [← hreverse, List.reverse_reverse, String.ofList_toList]

namespace Files

variable {fs fs' : Files} {place place' q : Place} {path segment text : String} {bytes : ByteArray}

/-! ### Where paths lead -/

lemma enter_eq_ok :
    fs.enter place segment = .ok place' ↔
      fs.isDirectory place = true ∧ fs.allow place .enter = .ok () ∧
        fs.follow (Place.step place segment) = place' := by
  unfold enter
  by_cases h : fs.isDirectory place
  · simp only [h, if_true, true_and, except_bind_eq_ok, pure, Except.pure, Except.ok.injEq]
    exact ⟨fun ⟨_, hallow, hstep⟩ => ⟨hallow, hstep⟩, fun ⟨hallow, hstep⟩ => ⟨(), hallow, hstep⟩⟩
  · by_cases hfile : (fs.file? place).isSome
    · simp [h, hfile]
    · simp [h, hfile]

lemma locate_eq_ok :
    fs.locate path = .ok place ↔
      path ≠ "" ∧ (fs.start path).2.foldlM fs.enter (fs.start path).1 = .ok place := by
  unfold locate
  by_cases h : path = ""
  · simp [h]
  · simp [h]

/-- A path leads to a file that holds some bytes, whether or not they may be read. -/
def Holds (fs : Files) (path : String) (bytes : ByteArray) : Prop :=
  ∃ place, fs.locate path = .ok place ∧ fs.file? place = some bytes

lemma isFile_iff : fs.isFile path = true ↔ ∃ bytes, fs.Holds path bytes := by
  unfold isFile Holds
  cases fs.locate path with
  | error e => simp
  | ok place => simp [Option.isSome_iff_exists]

/-- What is read is in a file. -/
lemma exists_holds_of_read (h : fs.read path = .ok text) : ∃ bytes, fs.Holds path bytes := by
  unfold read at h
  obtain ⟨place, hplace, h⟩ := except_bind_eq_ok.mp h
  cases hfile : fs.file? place with
  | none => simp [hfile, throw, throwThe, MonadExceptOf.throw] at h
  | some bytes => exact ⟨bytes, place, hplace, hfile⟩

/-! ### Writing a file -/

lemma lookup_map_replace (files : List (Place × ByteArray)) (place q : Place)
    (bytes : ByteArray) :
    (files.map fun f => if f.1 = place then (place, bytes) else f).lookup q =
      if q = place then (files.lookup q).map fun _ => bytes else files.lookup q := by
  induction files with
  | nil => simp
  | cons f files ih =>
    obtain ⟨p, old⟩ := f
    -- Replacing keeps the places, so both lists are searched alike.
    have hkept : (if p = place then (place, bytes) else (p, old)) =
        (p, if p = place then bytes else old) := by
      split_ifs with hp
      · rw [hp]
      · rfl
    simp only [List.map_cons, hkept, List.lookup_cons]
    by_cases hq : q = p
    · by_cases hp : p = place
      · simp [hq, hp]
      · simp [hq, hp]
    · rw [beq_false_of_ne hq]
      exact ih

lemma file?_put (fs : Files) (place q : Place) (bytes : ByteArray) :
    (fs.put place bytes).file? q = if q = place then some bytes else fs.file? q := by
  unfold put
  by_cases hfile : (fs.file? place).isSome
  · rw [if_pos hfile, file?, lookup_map_replace]
    by_cases hq : q = place
    · obtain ⟨old, hold⟩ := Option.isSome_iff_exists.mp hfile
      rw [if_pos hq, if_pos hq, hq]
      simpa [file?] using ⟨old, hold⟩
    · rw [if_neg hq, if_neg hq, file?]
  · have hnone : fs.files.lookup place = none := Option.not_isSome_iff_eq_none.mp hfile
    rw [if_neg hfile, file?, List.lookup_append]
    by_cases hq : q = place
    · simp [hq, hnone]
    · have hfalse : (q == place) = false := beq_false_of_ne hq
      simp [hq, hfalse, List.lookup_cons, file?]

/-- Nothing but the bytes of files changes. -/
lemma exists_put_eq (fs : Files) (place : Place) (bytes : ByteArray) :
    ∃ files, fs.put place bytes = { fs with files := files } := by
  unfold put
  split_ifs
  · exact ⟨_, rfl⟩
  · exact ⟨_, rfl⟩

lemma enter_put_eq_ok :
    (fs.put place bytes).enter place' segment = .ok q ↔ fs.enter place' segment = .ok q := by
  obtain ⟨files, hput⟩ := fs.exists_put_eq place bytes
  rw [enter_eq_ok, enter_eq_ok, hput]
  rfl

/-- After bytes are put somewhere, every path leads where it led before. -/
lemma locate_put_eq_ok :
    (fs.put place bytes).locate path = .ok q ↔ fs.locate path = .ok q := by
  have hfold : ∀ (parts : List String) (p : Place),
      parts.foldlM (fs.put place bytes).enter p = .ok q ↔ parts.foldlM fs.enter p = .ok q := by
    intro parts
    induction parts with
    | nil => exact fun _ => Iff.rfl
    | cons segment parts ih =>
      intro p
      simp only [List.foldlM_cons, except_bind_eq_ok, enter_put_eq_ok, ih]
  have hstart : (fs.put place bytes).start path = fs.start path := by
    obtain ⟨files, hput⟩ := fs.exists_put_eq place bytes
    rw [hput]
    rfl
  rw [locate_eq_ok, locate_eq_ok, hstart, hfold]

/-- After bytes are put somewhere, all paths that lead there lead to them, and other paths lead to
what they led to before. -/
lemma holds_put {content : ByteArray} :
    (fs.put place bytes).Holds path content ↔
      if fs.locate path = .ok place then content = bytes else fs.Holds path content := by
  simp only [Holds, locate_put_eq_ok, file?_put]
  by_cases hpath : fs.locate path = .ok place
  · simp [hpath, eq_comm]
  · rw [if_neg hpath]
    refine exists_congr fun q => and_congr_right fun hq => ?_
    have hne : q ≠ place := by
      rintro rfl
      exact hpath hq
    rw [if_neg hne]

lemma exists_place_of_write (h : fs.write path text = .ok fs') :
    ∃ place, fs.locate path = .ok place ∧ fs.put place text.toUTF8 = fs' := by
  unfold write at h
  obtain ⟨place, hplace, h⟩ := except_bind_eq_ok.mp h
  cases hslash : path.endsWith "/" with
  | true => simp [hslash, throw, throwThe, MonadExceptOf.throw, bind, Except.bind] at h
  | false =>
    simp only [hslash, Bool.false_eq_true, if_false] at h
    obtain ⟨-, -, h⟩ := except_bind_eq_ok.mp h
    cases h
    rw [Path.trimSlashes_eq_self hslash] at hplace
    exact ⟨place, hplace, rfl⟩

/-! ### Compiling a file -/

variable {input : String} {settings : Option String} {cfg : Settings} {c : Compilation}

/-- The settings that belong to a document: those of the file that is named for them, else those of
the file next to the document if there is one, else the defaults. -/
inductive Selects (fs : Files) (input : String) : Option String → Settings → Prop
  | named {path text : String} {cfg : Settings} :
      fs.read path = .ok text → Settings.parse? text = some cfg → Selects fs input (some path) cfg
  | beside {text : String} {cfg : Settings} :
      fs.read (settingsBeside input) = .ok text → Settings.parse? text = some cfg →
      Selects fs input none cfg
  | defaults : (∀ bytes, ¬ fs.Holds (settingsBeside input) bytes) → Selects fs input none {}

/-- A document compiles with the settings that belong to it: it is read, it spells a document, a
tree is built from the document, and the tree compiles. -/
def Compiles (fs : Files) (input : String) (settings : Option String) (c : Compilation) : Prop :=
  ∃ cfg text document t, fs.Selects input settings cfg ∧ fs.read input = .ok text ∧
    Document.parse? text = some document ∧ document.toTree = .ok t ∧ (t.compile cfg).outcome = .ok c

lemma readFor_eq_ok : (fs.readFor path).outcome = .ok text ↔ fs.read path = .ok text := by
  unfold readFor Reported.of
  cases fs.read path with
  | error e => simp [Except.mapError]
  | ok found => simp [Except.mapError]

lemma loadSettingsFrom_eq_ok :
    (fs.loadSettingsFrom path).outcome = .ok cfg ↔
      ∃ text, fs.read path = .ok text ∧ Settings.parse? text = some cfg := by
  unfold loadSettingsFrom
  rw [Reported.bind_eq_ok]
  refine exists_congr fun text => ?_
  rw [readFor_eq_ok]
  refine and_congr_right fun _ => ?_
  cases Settings.parse? text with
  | none => simp [Reported.fail]
  | some found =>
    simp only [Reported.bind_eq_ok, Reported.outcome_tell, Reported.outcome_pure, Except.ok.injEq,
      Option.some.injEq, exists_const, true_and]

lemma loadSettings_eq_ok :
    (fs.loadSettings input settings).outcome = .ok cfg ↔ fs.Selects input settings cfg := by
  unfold loadSettings
  cases settings with
  | some path =>
    simp only [loadSettingsFrom_eq_ok]
    constructor
    · rintro ⟨text, hread, hparse⟩
      exact .named hread hparse
    · rintro (⟨hread, hparse⟩ | _ | _)
      exact ⟨_, hread, hparse⟩
  | none =>
    by_cases hfile : fs.isFile (settingsBeside input)
    · simp only [hfile, if_true, loadSettingsFrom_eq_ok]
      constructor
      · rintro ⟨text, hread, hparse⟩
        exact .beside hread hparse
      · rintro (_ | ⟨hread, hparse⟩ | hnone)
        · exact ⟨_, hread, hparse⟩
        · obtain ⟨bytes, hbytes⟩ := isFile_iff.mp hfile
          exact absurd hbytes (hnone bytes)
    · have hnone : ∀ bytes, ¬ fs.Holds (settingsBeside input) bytes :=
        fun bytes hbytes => hfile (isFile_iff.mpr ⟨bytes, hbytes⟩)
      simp only [hfile, Bool.false_eq_true, if_false, Reported.bind_eq_ok, Reported.outcome_tell,
        Reported.outcome_pure, exists_const, true_and, Except.ok.injEq]
      constructor
      · rintro rfl
        exact .defaults hnone
      · rintro (_ | ⟨hread, _⟩ | _)
        · exact absurd (isFile_iff.mpr (exists_holds_of_read hread)) hfile
        · rfl

lemma compileText_eq_ok :
    (compileText text cfg).outcome = .ok c ↔ ∃ document t, Document.parse? text = some document ∧
      document.toTree = .ok t ∧ (t.compile cfg).outcome = .ok c := by
  unfold compileText
  cases Document.parse? text with
  | none => simp [Reported.fail]
  | some document =>
    cases htree : document.toTree with
    | error e => simp [Reported.fail, htree]
    | ok t =>
      simp only [Reported.mapError_eq_ok, Option.some.injEq, exists_eq_left', exists_and_left,
        htree, Except.ok.injEq]

lemma compile_eq_ok :
    (fs.compile path cfg).outcome = .ok c ↔
      ∃ text, fs.read path = .ok text ∧ (compileText text cfg).outcome = .ok c := by
  simp only [compile, Reported.bind_eq_ok, Reported.outcome_tell, readFor_eq_ok,
    Reported.mapError_eq_ok, exists_const, true_and]

lemma compileProject_eq_ok :
    (fs.compileProject input settings).outcome = .ok c ↔ fs.Compiles input settings c := by
  unfold compileProject Compiles
  simp only [Reported.bind_eq_ok, loadSettings_eq_ok, compile_eq_ok, compileText_eq_ok,
    exists_and_left]

lemma Compiles.unique {c' : Compilation} (h : fs.Compiles input settings c)
    (h' : fs.Compiles input settings c') : c = c' := by
  rw [← compileProject_eq_ok] at h h'
  cases h.symm.trans h'
  rfl

end Files

/-! ### Commands -/

namespace Command

variable {fs : Files} {input path text : String} {output settings : Option String} {o : Outcome}

/-- A build got as far as writing a text to a path: it set out to do so, and it ended as the
writing ended. -/
inductive ReachedWriting (fs : Files) (path text : String) (o : Outcome) : Prop
  | written (hattempt : o.attempt = some (path, text)) (hwrite : fs.write path text = .ok o.files)
      (hsucceeded : o.succeeded = true)
  | unwritten (error : FileError) (hattempt : o.attempt = some (path, text))
      (hwrite : fs.write path text = .error error) (hfailed : o.succeeded = false)
      (hfiles : o.files = fs) (herrors : o.errors = failureText (writeFailure path error).chain)

lemma ReachedWriting.attempt_eq (h : ReachedWriting fs path text o) :
    o.attempt = some (path, text) := by
  cases h with
  | written hattempt => exact hattempt
  | unwritten _ hattempt => exact hattempt

lemma files_runCheck : (runCheck fs input settings).files = fs := by
  simp only [runCheck]
  split
  · rfl
  · split <;> rfl

lemma runCheck_succeeded_iff :
    (runCheck fs input settings).succeeded = true ↔ ∃ c, fs.Compiles input settings c := by
  simp only [← Files.compileProject_eq_ok, Files.compileProject, Reported.bind_eq_ok]
  cases hloaded : (fs.loadSettings input settings).outcome with
  | error e => simp [runCheck, hloaded]
  | ok cfg =>
    cases hcompiled : (fs.compile input cfg).outcome with
    | error e => simp [runCheck, hloaded, hcompiled]
    | ok c => simp [runCheck, hloaded, hcompiled]

inductive BuildEnds (fs : Files) (input : String) (output settings : Option String)
    (o : Outcome) : Prop
  | stopped (hnone : ∀ c, ¬ fs.Compiles input settings c) (hattempt : o.attempt = none)
      (hfailed : o.succeeded = false) (hfiles : o.files = fs)
  | reached (c : Compilation) (hcompiles : fs.Compiles input settings c)
      (hreached : ReachedWriting fs (outputPath input output) c.program o)

lemma buildEnds_runBuild (fs : Files) (input : String) (output settings : Option String) :
    BuildEnds fs input output settings (runBuild fs input output settings) := by
  unfold runBuild
  cases hcompiled : (fs.compileProject input settings).outcome with
  | error e =>
    simp only [hcompiled]
    refine .stopped (fun c hc => ?_) rfl rfl rfl
    rw [Files.compileProject_eq_ok.mpr hc] at hcompiled
    cases hcompiled
  | ok c =>
    simp only [hcompiled]
    refine .reached c (Files.compileProject_eq_ok.mp hcompiled) ?_
    cases hwrite : fs.write (outputPath input output) c.program with
    | error error => exact .unwritten error rfl hwrite rfl rfl rfl
    | ok fs' => exact .written rfl hwrite rfl

namespace BuildEnds

variable (h : BuildEnds fs input output settings o)
include h

lemma files_of_failed (hfailed : o.succeeded = false) : o.files = fs := by
  cases h with
  | stopped _ _ _ hfiles => exact hfiles
  | reached _ _ hreached =>
    cases hreached with
    | written _ _ hsucceeded => cases hsucceeded.symm.trans hfailed
    | unwritten _ _ _ _ hfiles => exact hfiles

lemma succeeded_iff :
    o.succeeded = true ↔ ∃ c fs', fs.Compiles input settings c ∧
      fs.write (outputPath input output) c.program = .ok fs' := by
  cases h with
  | stopped hnone _ hfailed _ =>
    rw [hfailed]
    exact iff_of_false Bool.false_ne_true fun ⟨c, _, hc, _⟩ => hnone c hc
  | reached c hcompiles hreached =>
    cases hreached with
    | written _ hwrite hsucceeded =>
      exact iff_of_true hsucceeded ⟨c, o.files, hcompiles, hwrite⟩
    | unwritten _ _ hwrite hfailed =>
      rw [hfailed]
      refine iff_of_false Bool.false_ne_true ?_
      rintro ⟨c', _, hcompiles', hwrite'⟩
      rw [hcompiles'.unique hcompiles, hwrite] at hwrite'
      cases hwrite'

/-- A build that succeeds puts its program where the output path leads. -/
lemma exists_put_of_succeeded (hsucceeded : o.succeeded = true) :
    ∃ c place, fs.Compiles input settings c ∧ fs.locate (outputPath input output) = .ok place ∧
      fs.put place c.program.toUTF8 = o.files := by
  cases h with
  | stopped _ _ hfailed _ => cases hsucceeded.symm.trans hfailed
  | reached c hcompiles hreached =>
    cases hreached with
    | written _ hwrite _ =>
      obtain ⟨place, hplace, hput⟩ := Files.exists_place_of_write hwrite
      exact ⟨c, place, hcompiles, hplace, hput⟩
    | unwritten _ _ _ hfailed => cases hsucceeded.symm.trans hfailed

lemma reachedWriting_iff :
    ReachedWriting fs path text o ↔ path = outputPath input output ∧
      ∃ c, fs.Compiles input settings c ∧ c.program = text := by
  cases h with
  | stopped hnone hattempt _ _ =>
    refine iff_of_false (fun hreached => ?_) fun ⟨_, c, hc, _⟩ => hnone c hc
    cases hattempt.symm.trans hreached.attempt_eq
  | reached c hcompiles hreached =>
    constructor
    · intro hreached'
      cases hreached.attempt_eq.symm.trans hreached'.attempt_eq
      exact ⟨rfl, c, hcompiles, rfl⟩
    · rintro ⟨rfl, c', hcompiles', rfl⟩
      rw [hcompiles'.unique hcompiles]
      exact hreached

end BuildEnds

/-- Checking a program writes no file. Building it writes none if it fails, and it succeeds exactly
if the document compiles and the program can be written. Then the output path leads to the program,
all other files hold what they held before, and paths lead where they led before. Checking succeeds
exactly if building gets as far as writing, which it does with the program that the document
compiles to, at the output path. -/
theorem only_finished_programs_written (fs : Files) (input : String)
    (output settings : Option String) :
    (run fs (.check input settings)).files = fs ∧
    ((run fs (.build input output settings)).succeeded = false →
      (run fs (.build input output settings)).files = fs) ∧
    ((run fs (.build input output settings)).succeeded = true ↔
      ∃ c fs', fs.Compiles input settings c ∧
        fs.write (outputPath input output) c.program = .ok fs') ∧
    ((run fs (.build input output settings)).succeeded = true →
      ∃ c place, fs.Compiles input settings c ∧
        fs.locate (outputPath input output) = .ok place ∧
        { (run fs (.build input output settings)).files with files := fs.files } = fs ∧
        (∀ q, (run fs (.build input output settings)).files.file? q =
          if q = place then some c.program.toUTF8 else fs.file? q) ∧
        ∀ path bytes, (run fs (.build input output settings)).files.Holds path bytes ↔
          if fs.locate path = .ok place then bytes = c.program.toUTF8
          else fs.Holds path bytes) ∧
    (∀ path text, ReachedWriting fs path text (run fs (.build input output settings)) ↔
      path = outputPath input output ∧ ∃ c, fs.Compiles input settings c ∧ c.program = text) ∧
    ((run fs (.check input settings)).succeeded = true ↔
      ∃ path text, ReachedWriting fs path text (run fs (.build input output settings))) ∧
    ((run fs (.check input settings)).succeeded = true ↔ ∃ c, fs.Compiles input settings c) := by
  have hends : BuildEnds fs input output settings (run fs (.build input output settings)) :=
    buildEnds_runBuild fs input output settings
  have hcheck : (run fs (.check input settings)).succeeded = true ↔
      ∃ c, fs.Compiles input settings c := runCheck_succeeded_iff
  refine ⟨files_runCheck, hends.files_of_failed, hends.succeeded_iff, fun hsucceeded => ?_,
    fun _ _ => hends.reachedWriting_iff, ?_, hcheck⟩
  · obtain ⟨c, place, hcompiles, hplace, hput⟩ := hends.exists_put_of_succeeded hsucceeded
    refine ⟨c, place, hcompiles, hplace, ?_, fun q => ?_, fun path bytes => ?_⟩
    · obtain ⟨files, hfiles⟩ := fs.exists_put_eq place c.program.toUTF8
      rw [← hput, hfiles]
    · rw [← hput, Files.file?_put]
    · rw [← hput, Files.holds_put]
  · simp only [hcheck, hends.reachedWriting_iff]
    constructor
    · rintro ⟨c, hc⟩
      exact ⟨_, c.program, rfl, c, hc, rfl⟩
    · rintro ⟨_, _, -, c, hc, -⟩
      exact ⟨c, hc⟩

/-- A directory with an empty program and, if there are any, settings. -/
def emptyProject (settings : Option ByteArray) : Files where
  working := ["w"]
  files := (["w", "game.json"], "\x7b\"kind\":\"start\"\x7d".toUTF8) ::
    settings.toList.map fun bytes => (["w", "griddy.toml"], bytes)

/-- The empty program is built without settings. -/
theorem empty_program_written :
    (run (emptyProject none) (.check "game.json" none)).succeeded = true ∧
    (run (emptyProject none) (.build "game.json" none none)).succeeded = true ∧
    ∃ c, (emptyProject none).Compiles "game.json" none c ∧
      ReachedWriting (emptyProject none) "game.c" c.program
        (run (emptyProject none) (.build "game.json" none none)) ∧
      (run (emptyProject none) (.build "game.json" none none)).files.file? ["w", "game.c"] =
        some c.program.toUTF8 := by
  have hsucceeded : (run (emptyProject none) (.build "game.json" none none)).succeeded = true := by
    decide +kernel
  have hlocate : (emptyProject none).locate "game.c" = .ok ["w", "game.c"] := by decide +kernel
  have hpath : outputPath "game.json" none = "game.c" := by decide +kernel
  obtain ⟨-, -, -, hwritten, hreached, -, hcheck⟩ :=
    only_finished_programs_written (emptyProject none) "game.json" none none
  obtain ⟨c, place, hcompiles, hplace, -, hfile, -⟩ := hwritten hsucceeded
  rw [hpath] at hplace
  cases hlocate.symm.trans hplace
  refine ⟨hcheck.mpr ⟨c, hcompiles⟩, hsucceeded, c, hcompiles, ?_, ?_⟩
  · exact (hreached _ _).mpr ⟨hpath.symm, c, hcompiles, rfl⟩
  · rw [hfile, if_pos rfl]

/- Settings that are there and are no text are not taken for absent. -/
example :
    (run (emptyProject (some ⟨#[0xFF]⟩)) (.build "game.json" none none)).succeeded = false := by
  decide +kernel

end Command

end GridGame
