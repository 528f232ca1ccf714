import ViewBinding.Command.Run
import ViewBinding.Files.Tree
import ViewBinding.Proofs.Emission.InTurn
import ViewBinding.Proofs.Round.Verdict

/-!
# What the commands have in common

The commands `check`, `dump` and `generate` load and judge a round in the same way and differ only
in what they do with one that is valid. Whatever can go wrong before that ends all of them in the
same way: with nothing printed but what went wrong, and nothing stored
(`ViewBinding.Command.run_of_load_error`, `ViewBinding.Command.perform_of_not_isValid`). Of what
they do with a valid round only storing can fail, and it fails exactly if one companion cannot be
stored (`ViewBinding.Command.run_generate_of_load`).

Options mean the same to all of them (`ViewBinding.Command.parse_of_parse`), and three command lines
that name the same inputs come to the same verdict
(`ViewBinding.runProgram_agree`).
-/

namespace ViewBinding

open Files

namespace Command

/-! ### One command line for all commands -/

section Parse

variable {verb verb' : Verb} {g g' : Given} {p q : Progress} {f : Flag}

/-- Only a wish for help is answered by each command in its own way. -/
theorem switch_of_switch (h : g.switch verb f = .ok g') : g.switch verb' f = .ok g' := by
  cases f with
  | help => cases h
  | _ => exact h

theorem readSwitch_of_readSwitch (h : p.readSwitch verb f = .ok q) :
    p.readSwitch verb' f = .ok q := by
  have hread (verb : Verb) : p.readSwitch verb f = p.settled.bind fun p =>
      (p.given.switch verb f).map fun g => { p with given := g } := rfl
  rw [hread] at h ⊢
  cases hsettled : p.settled with
  | error e =>
    rw [hsettled] at h
    cases h
  | ok p =>
    rw [hsettled] at h
    change (p.given.switch verb f).map _ = _ at h
    change (p.given.switch verb' f).map _ = _
    cases hswitch : p.given.switch verb f with
    | error e =>
      rw [hswitch] at h
      cases h
    | ok g =>
      rw [hswitch] at h
      rw [switch_of_switch hswitch]
      exact h

theorem readLong_of_readLong {name : String} {value : Option String}
    (h : p.readLong verb name value = .ok q) : p.readLong verb' name value = .ok q := by
  unfold Progress.readLong at *
  cases hflag : Flag.ofLong? name with
  | none =>
    rw [hflag] at h
    cases h
  | some f =>
    rw [hflag] at h
    dsimp only at *
    split
    · rw [if_pos ‹_›] at h
      exact h
    · rw [if_neg ‹_›] at h
      cases value with
      | some value => exact h
      | none => exact readSwitch_of_readSwitch h

theorem readShort_of_readShort {letters : List Char} (h : p.readShort verb letters = .ok q) :
    p.readShort verb' letters = .ok q := by
  induction letters generalizing p with
  | nil => exact h
  | cons c cs ih =>
    unfold Progress.readShort at h ⊢
    cases hflag : Flag.ofShort? c with
    | none =>
      rw [hflag] at h
      cases h
    | some f =>
      rw [hflag] at h
      dsimp only at *
      split
      · rw [if_pos ‹_›] at h
        exact h
      · rw [if_neg ‹_›] at h
        cases hread : p.readSwitch verb f with
        | error e =>
          rw [hread] at h
          cases h
        | ok next =>
          rw [hread] at h
          rw [readSwitch_of_readSwitch hread]
          exact ih h

theorem read_of_read {argument : String} (h : p.read verb argument = .ok q) :
    p.read verb' argument = .ok q := by
  unfold Progress.read at *
  split
  · rw [if_pos ‹_›] at h
    exact h
  · rw [if_neg ‹_›] at h
    cases hform : Form.of argument with
    | long name value =>
      rw [hform] at h
      exact readLong_of_readLong h
    | short letters =>
      rw [hform] at h
      exact readShort_of_readShort h
    | escape =>
      rw [hform] at h
      exact h
    | word =>
      rw [hform] at h
      exact h

theorem readAll_of_readAll {arguments : List String} (h : p.readAll verb arguments = .ok q) :
    p.readAll verb' arguments = .ok q := by
  induction arguments generalizing p with
  | nil => exact h
  | cons argument arguments ih =>
    unfold Progress.readAll at h ⊢
    cases hread : p.read verb argument with
    | error e =>
      rw [hread] at h
      cases h
    | ok next =>
      rw [hread] at h
      rw [read_of_read hread]
      exact ih h

/-- **One command can be exchanged for another**: the same arguments then pass, and give the same
options. -/
theorem parse_of_parse {arguments : List String} {c : Command}
    (h : parse (verb.word :: arguments) = .ok c) (verb' : Verb) :
    ∃ c', parse (verb'.word :: arguments) = .ok c' ∧ c'.verb = verb' ∧ c'.common = c.common := by
  have hword (verb : Verb) : Verb.ofWord? verb.word = some verb := by
    cases verb <;> decide
  unfold parse at *
  dsimp only at *
  rw [hword] at h ⊢
  dsimp only at *
  cases hread : Progress.start.readAll verb arguments with
  | error e =>
    rw [hread] at h
    cases h
  | ok p =>
    rw [hread] at h
    rw [readAll_of_readAll hread]
    cases h
    refine ⟨_, rfl, ?_⟩
    cases verb <;> cases verb' <;> exact ⟨rfl, rfl⟩

end Parse

/-! ### Loading -/

section Load

variable {s : Surroundings} {options : CommonOptions} {loaded : Loaded} {found : Scan}
  {policy : Bool}

theorem load_of_load_error {e : LoadError} (h : options.inputs.load s = .error e) :
    load s options = .error e.message := by
  rw [load, h]

theorem load_of_manifest_error {message : String} (hload : options.inputs.load s = .ok loaded)
    (h : Manifest.bindings loaded.manifests = .error message) :
    load s options = .error (manifestErrorMessage message) := by
  rw [load, hload]
  simp only [scan, h]

/-- The round is that of the inputs, whichever policy they were scanned under, with the policy of
the command. -/
theorem load_of_scan (hload : options.inputs.load s = .ok loaded)
    (hscan : scan loaded.sources loaded.manifests policy = .ok found) :
    load s options = .ok { found with strict := options.strict }.synthesize := by
  rw [load, hload]
  simp only [Scan.scan_eq_of_policy hscan options.strict]

end Load

/-! ### What a command does with its round -/

section Perform

variable {m : Type → Type} [Monad m] {d : Disk m} {host : Host} {c : Command} {r : Round}
  {isTerminal : Bool}

/-- The findings of a round as a command shows them. -/
def shown (isTerminal : Bool) (c : Command) (r : Round) : String :=
  r.report.display r.sources (c.common.color.colors isTerminal)

/-- A round that cannot be made ends every command: nothing is printed but the error, and nothing
is stored. -/
theorem run_of_load_error {message : String} (hout : c.lacksOutput = false)
    (h : load host.surroundings c.common = .error message) :
    c.run d host = pure (.fatal message) := by
  rw [run, hout, h]
  rfl

theorem run_of_load (hout : c.lacksOutput = false)
    (h : load host.surroundings c.common = .ok r) :
    c.run d host = c.perform d host.isTerminal r := by
  rw [run, hout, h]
  rfl

/-- A round that is not valid ends every command: nothing is printed but the findings, and nothing
is stored. -/
theorem perform_of_not_isValid (h : r.isValid = false) :
    c.perform d isTerminal r = pure ⟨"", c.shown isTerminal r, 1⟩ := by
  rw [perform, h]
  rfl

/-- `check` prints the findings. -/
theorem run_check_of_load {options : CommonOptions}
    (h : load host.surroundings options = .ok r) :
    (Command.check options).run d host =
      pure ⟨"", (Command.check options).shown host.isTerminal r, if r.isValid then 0 else 1⟩ := by
  rw [run_of_load rfl h]
  cases hvalid : r.isValid with
  | false => exact perform_of_not_isValid hvalid
  | true =>
    rw [perform, hvalid]
    rfl

/-- `dump` prints the findings and the companions of a valid round. -/
theorem run_dump_of_load {options : CommonOptions} {text : TextOptions}
    (h : load host.surroundings options = .ok r) :
    (Command.dump options text).run d host =
      pure ⟨if r.isValid then
          Companion.listing (layout text (options.color.colors host.isTerminal)) r.companions
        else "",
        (Command.dump options text).shown host.isTerminal r, if r.isValid then 0 else 1⟩ := by
  rw [run_of_load rfl h]
  cases hvalid : r.isValid with
  | false => exact perform_of_not_isValid hvalid
  | true =>
    rw [perform, hvalid]
    rfl

end Perform

/-- Of what is done with a valid round only storing can fail; then the findings are followed by the
error. -/
theorem perform_generate {σ : Type} {d : Disk (StateM σ)} {options : CommonOptions}
    {text : TextOptions} {root : Path} {r : Round} {isTerminal : Bool} {files : σ}
    (h : r.failure? = none) (hvalid : r.isValid = true) :
    let c := Command.generate options text (some root)
    let stored := emit (d.store root) (layout text false) r.companions files
    c.perform d isTerminal r files =
      (match stored.1 with
        | .ok _ => ⟨"", c.shown isTerminal r, 0⟩
        | .error e => ⟨"", c.shown isTerminal r ++ ("error: " ++ e.message ++ "\n"), 1⟩,
      stored.2) := by
  intro c stored
  have hemit : r.emit (d.store root) (layout text false) files =
      (stored.1.mapError .write, stored.2) := by
    rw [Round.emit_of_none h]
    rfl
  have hfinish : c.perform d isTerminal r =
      finish d (options.color.colors isTerminal) (c.shown isTerminal r) r c := by
    rw [perform, hvalid]
    rfl
  rw [hfinish, finish, bind_apply hemit]
  cases stored.1 <;> rfl

/-- **`generate` stores all companions of a valid round or ends in an error.** -/
theorem run_generate_of_load {σ : Type} {d : Disk (StateM σ)} {host : Host}
    {options : CommonOptions} {text : TextOptions} {root : Path} {r : Round} {findings : String}
    (h : load host.surroundings options = .ok r) (hvalid : r.isValid = true ↔ r.failure? = none)
    (hshown : (Command.generate options text (some root)).shown host.isTerminal r = findings)
    {files : σ} {out : Outcome × σ}
    (hout : out = (Command.generate options text (some root)).run d host files) :
    (r.isValid = false → out = (⟨"", findings, 1⟩, files)) ∧
    (r.isValid = true →
      (∀ paths after,
        StoresAll (d.store root) (layout text false) r.companions files paths after →
          out = (⟨"", findings, 0⟩, after)) ∧
      ((¬∃ paths after,
        StoresAll (d.store root) (layout text false) r.companions files paths after) →
          ∃ e : WriteError, out.1 = ⟨"", findings ++ ("error: " ++ e.message ++ "\n"), 1⟩)) := by
  have hrun : out = (Command.generate options text (some root)).perform d host.isTerminal r files :=
    hout.trans (congrFun (run_of_load rfl h) files)
  refine ⟨fun hinvalid => ?_, fun hisValid => ?_⟩
  · rw [hrun, perform_of_not_isValid hinvalid, hshown]
    rfl
  · have hperform := hrun.trans (perform_generate (hvalid.mp hisValid) hisValid)
    rcases hemit : emit (d.store root) (layout text false) r.companions files with ⟨result, after⟩
    rw [hperform, hemit, hshown]
    refine ⟨fun paths last hstored => ?_, fun hnot => ?_⟩
    · rw [emit_eq_ok_iff.mpr hstored] at hemit
      cases hemit
      rfl
    · cases result with
      | ok paths => exact absurd ⟨paths, after, emit_eq_ok_iff.mp hemit⟩ hnot
      | error e => exact ⟨e, rfl⟩

section Silent

variable {m : Type → Type} [Monad m] (d : Disk m) (host : Host) (options : CommonOptions)

/-- **`check` asks nothing of the disk and prints nothing but what it finds.** -/
theorem run_check_eq_pure : ∃ stderr status,
    (Command.check options).run d host = pure ⟨"", stderr, status⟩ := by
  cases hload : load host.surroundings options with
  | error message => exact ⟨_, _, run_of_load_error rfl hload⟩
  | ok r => exact ⟨_, _, run_check_of_load hload⟩

/-- **`dump` asks nothing of the disk.** -/
theorem run_dump_eq_pure (text : TextOptions) : ∃ out,
    (Command.dump options text).run d host = pure out := by
  cases hload : load host.surroundings options with
  | error message => exact ⟨_, run_of_load_error rfl hload⟩
  | ok r => exact ⟨_, run_dump_of_load hload⟩

end Silent

end Command

/-! ### Three command lines -/

theorem runProgram_of_parse {m : Type → Type} [Monad m] {d : Disk m} {host : Host}
    {line : List String} {c : Command} (h : Command.parse line = .ok c) :
    runProgram d host line = c.run d host := by
  rw [runProgram, h]

/-- **The three commands agree on the same inputs.** Of three command lines that name the same
inputs and make the same choice of colors, `check` and `dump` store nothing, and `check` prints
nothing to the standard output. Inputs that cannot be loaded and manifests that cannot be read end
all three with the same error, nothing else printed and nothing stored. Otherwise all print the
same findings; `check` and `dump` succeed exactly if the round is valid under their policy, and
`generate` does if moreover every companion is stored. A round that is not valid leads to nothing
printed by `dump` and nothing stored by `generate`. -/
theorem runProgram_agree {σ : Type} (d : Disk (StateM σ)) (host : Host) (files : σ)
    {checkLine dumpLine generateLine : List String} {check dump generate : CommonOptions}
    {text text' : TextOptions} {root : Path}
    (hcheck : Command.parse checkLine = .ok (.check check))
    (hdump : Command.parse dumpLine = .ok (.dump dump text))
    (hgenerate : Command.parse generateLine = .ok (.generate generate text' (some root)))
    (hinputs : dump.inputs = check.inputs ∧ generate.inputs = check.inputs)
    (hcolor : dump.color = check.color ∧ generate.color = check.color) :
    let checked := runProgram d host checkLine files
    let dumped := runProgram d host dumpLine files
    let generated := runProgram d host generateLine files
    (checked.2 = files ∧ checked.1.stdout = "" ∧ dumped.2 = files) ∧
    (∀ e, check.inputs.load host.surroundings = .error e →
      checked.1 = .fatal e.message ∧ dumped.1 = .fatal e.message ∧
        generated = (.fatal e.message, files)) ∧
    (∀ loaded message, check.inputs.load host.surroundings = .ok loaded →
      Manifest.bindings loaded.manifests = .error message →
        checked.1 = .fatal (manifestErrorMessage message) ∧
        dumped.1 = .fatal (manifestErrorMessage message) ∧
        generated = (.fatal (manifestErrorMessage message), files)) ∧
    ∀ loaded found, check.inputs.load host.surroundings = .ok loaded →
      scan loaded.sources loaded.manifests check.strict = .ok found →
        let round (strict : Bool) : Round := { found with strict := strict }.synthesize
        let shown := (round check.strict).report.display found.sources
          (check.color.colors host.isTerminal)
        let stored := StoresAll (d.store root) (Command.layout text' false)
          (round generate.strict).companions files
        checked.1.stderr = shown ∧ dumped.1.stderr = shown ∧
        checked.1.status = (if (round check.strict).isValid then 0 else 1) ∧
        dumped.1.status = (if (round dump.strict).isValid then 0 else 1) ∧
        ((round dump.strict).isValid = false → dumped.1.stdout = "") ∧
        ((round generate.strict).isValid = false → generated = (⟨"", shown, 1⟩, files)) ∧
        ((round generate.strict).isValid = true →
          (∀ paths after, stored paths after → generated = (⟨"", shown, 0⟩, after)) ∧
          ((¬∃ paths after, stored paths after) → ∃ e : WriteError,
            generated.1 = ⟨"", shown ++ ("error: " ++ e.message ++ "\n"), 1⟩)) := by
  intro checked dumped generated
  have hchecked : checked = (Command.check check).run d host files :=
    congrFun (runProgram_of_parse hcheck) files
  have hdumped : dumped = (Command.dump dump text).run d host files :=
    congrFun (runProgram_of_parse hdump) files
  have hgenerated : generated = (Command.generate generate text' (some root)).run d host files :=
    congrFun (runProgram_of_parse hgenerate) files
  have hfatal {message : String}
      (hc : Command.load host.surroundings check = .error message)
      (hd : Command.load host.surroundings dump = .error message)
      (hg : Command.load host.surroundings generate = .error message) :
      checked.1 = .fatal message ∧ dumped.1 = .fatal message ∧
        generated = (.fatal message, files) := by
    rw [hchecked, hdumped, hgenerated, Command.run_of_load_error rfl hc,
      Command.run_of_load_error rfl hd, Command.run_of_load_error rfl hg]
    exact ⟨rfl, rfl, rfl⟩
  obtain ⟨hdinputs, hginputs⟩ := hinputs
  refine ⟨?_, fun e he => ?_, fun loaded message hload hmessage => ?_,
    fun loaded found hload hscan => ?_⟩
  · obtain ⟨stderr, status, hpure⟩ := Command.run_check_eq_pure d host check
    obtain ⟨out, hpure'⟩ := Command.run_dump_eq_pure d host dump text
    rw [hchecked, hdumped, hpure, hpure']
    exact ⟨rfl, rfl, rfl⟩
  · exact hfatal (Command.load_of_load_error he)
      (Command.load_of_load_error (hdinputs ▸ he)) (Command.load_of_load_error (hginputs ▸ he))
  · exact hfatal (Command.load_of_manifest_error hload hmessage)
      (Command.load_of_manifest_error (hdinputs ▸ hload) hmessage)
      (Command.load_of_manifest_error (hginputs ▸ hload) hmessage)
  · intro round shown stored
    have hround {options : CommonOptions} (h : options.inputs = check.inputs) :
        Command.load host.surroundings options = .ok (round options.strict) :=
      Command.load_of_scan (h ▸ hload) hscan
    -- the policy has no part in the findings, so all show those of one round
    have hshown (c : Command) (h : c.common.color = check.color) (strict : Bool) :
        c.shown host.isTerminal (round strict) = shown := by
      rw [Command.shown, h]
      rfl
    rw [hchecked, hdumped, Command.run_check_of_load (hround rfl),
      Command.run_dump_of_load (hround hdinputs)]
    exact ⟨hshown (.check check) rfl _, hshown (.dump dump text) hcolor.1 _, rfl, rfl,
      fun hinvalid => if_neg (Bool.eq_false_iff.mp hinvalid),
      Command.run_generate_of_load (hround hginputs) (Scan.isValid_synthesize_iff _)
        (hshown (.generate generate text' (some root)) hcolor.2 _) hgenerated⟩

/-- Two fields with one view id: `dump` accepts them, and the strict commands do not. -/
theorem runProgram_agree_collision :
    let text := "class A \x7b @BindView(1) View v; @BindView(1) View w; \x7d\n"
    let host : Host := ⟨⟨.ok "", fun _ => .file (.error .noSuchFile)⟩, false⟩
    let files : Tree := ⟨.directory "" [], []⟩
    let run (line : List String) := runProgram Tree.disk host line files
    let checked := run ["check", "--strict", "-s", text]
    let dumped := run ["dump", "-s", text]
    let generated := run ["generate", "--strict", "-s", text, "-o", "out"]
    checked.1.status = 1 ∧ dumped.1.status = 0 ∧
      generated = (⟨"", dumped.1.stderr, 1⟩, files) ∧ checked.1.stderr = dumped.1.stderr := by
  intro text host files run checked dumped generated
  let inputs : Inputs := ⟨[], some text, []⟩
  have hcheck : Command.parse ["check", "--strict", "-s", text] =
      .ok (.check ⟨inputs, true, .auto, 0⟩) := by
    subst text
    rfl
  have hdump : Command.parse ["dump", "-s", text] =
      .ok (.dump ⟨inputs, false, .auto, 0⟩ ⟨true, Command.defaultIndent⟩) := by
    subst text
    rfl
  have hgenerate : Command.parse ["generate", "--strict", "-s", text, "-o", "out"] =
      .ok (.generate ⟨inputs, true, .auto, 0⟩ ⟨true, Command.defaultIndent⟩ (some ⟨"out"⟩)) := by
    subst text
    rfl
  have hload : inputs.load host.surroundings = .ok ⟨[⟨.inline, text⟩], []⟩ := rfl
  obtain ⟨s, hscan⟩ : ∃ s, scan [⟨.inline, text⟩] [] true = .ok s := ⟨_, rfl⟩
  have hverdict : s.synthesize.report.fails true = true ∧
      s.synthesize.report.fails false = false := by
    cases hscan
    decide +kernel
  obtain ⟨hstrict, hlenient⟩ := hverdict
  have hinvalid : { s with strict := true }.synthesize.isValid = false :=
    congrArg (!·) hstrict
  have hvalid : { s with strict := false }.synthesize.isValid = true :=
    congrArg (!·) hlenient
  obtain ⟨-, -, -, hround⟩ :=
    runProgram_agree Tree.disk host files hcheck hdump hgenerate ⟨rfl, rfl⟩ ⟨rfl, rfl⟩
  obtain ⟨hchecked, hdumped, hcheckStatus, hdumpStatus, -, hgenerated, -⟩ := hround _ s hload hscan
  refine ⟨?_, ?_, ?_, ?_⟩
  · exact hcheckStatus.trans (if_neg (Bool.eq_false_iff.mp hinvalid))
  · exact hdumpStatus.trans (if_pos hvalid)
  · rw [hdumped]
    exact hgenerated hinvalid
  · rw [hchecked, hdumped]

end ViewBinding
