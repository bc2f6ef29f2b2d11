import StationNaming.Command.Run
/-!
# Command lines that ask for renaming

The words of a call are read one by one. What the two commands that rename are asked for can be
spelled for files of any name, since a word before them says that no switches follow.

**What is exact.** `read_renameWords` and `read_interactiveWords` say how these words are read, for
all files and all instructions; nothing of the instructions is looked at here. Where the names of
the files do not begin with a dash, the switches may also stand behind them
(`read_renameWordsBehind`).
-/

namespace StationNaming

/-! ## Words one by one -/

namespace CommandLine

variable {known : List Switch} {mixed : Bool} {word : String}

theorem read_switches {given : List Given} (h : readWord known word = .ok (.switches given))
    (words : List String) :
    read known mixed (word :: words) = (read known mixed words).map (withGiven given) := by
  rw [read, h]

theorem read_value {s : Switch} (h : readWord known word = .ok (.unfinished [] word s))
    (value : String) (words : List String) :
    read known mixed (word :: value :: words) =
      (read known mixed words).map (withGiven [⟨s, value⟩]) := by
  rw [read, h]
  rfl

theorem read_argument (h : readWord known word = .ok .argument) (words : List String) :
    read known true (word :: words) = (read known true words).map (withArgument word) := by
  rw [read, h]
  rfl

theorem read_stop (h : readWord known word = .ok .stop) (words : List String) :
    read known mixed (word :: words) = .ok { arguments := words } := by
  rw [read, h]

/-- **Values are read in the order in which they are given.** -/
theorem read_values {s : Switch} (h : readWord known word = .ok (.unfinished [] word s))
    (values words : List String) :
    read known mixed (values.flatMap (fun value => [word, value]) ++ words) =
      (read known mixed words).map (withGiven (values.map fun value => ⟨s, value⟩)) := by
  induction values with
  | nil =>
    show read known mixed words = _
    cases read known mixed words <;> rfl
  | cons value values ih =>
    show read known mixed
      (word :: value :: (values.flatMap (fun value => [word, value]) ++ words)) = _
    rw [read_value h, ih]
    cases read known mixed words <;> rfl

/-- A word that does not begin with a dash is an argument. -/
theorem readWord_of_undashed (h : word.toList.head? ≠ some '-') :
    readWord known word = .ok .argument := by
  unfold readWord
  split
  · next heq =>
    rw [heq] at h
    exact absurd rfl h
  · next heq =>
    rw [heq] at h
    exact absurd rfl h
  · rfl

/-! ## Switches and their values -/

section Given

variable {s s' : Switch} (given : List String) (line : CommandLine)

/-- A switch was given exactly if it has values. -/
theorem has_eq (line : CommandLine) (s : Switch) : line.has s = !(line.values s).isEmpty := by
  rw [has, values, List.isEmpty_map]
  induction line.given with
  | nil => rfl
  | cons g gs ih => cases hg : g.switch == s <;> simp [hg, ih]

theorem values_withGiven_of_ne (h : (s == s') = false) :
    (withGiven (given.map fun value => ⟨s, value⟩) line).values s' = line.values s' := by
  have hnone : (given.map fun value => (⟨s, value⟩ : Given)).filter (·.switch == s') = [] := by
    rw [List.filter_eq_nil_iff, List.forall_mem_map]
    exact fun value _ => by simp [h]
  rw [values, withGiven, List.filter_append, hnone, List.nil_append]
  rfl

theorem has_withGiven_of_ne (h : (s == s') = false) :
    (withGiven (given.map fun value => ⟨s, value⟩) line).has s' = line.has s' := by
  rw [has_eq, has_eq, values_withGiven_of_ne given line h]

theorem values_withGiven :
    (withGiven (given.map fun value => ⟨s, value⟩) line).values s = given ++ line.values s := by
  have hall : (given.map fun value => (⟨s, value⟩ : Given)).filter (·.switch == s) =
      given.map fun value => ⟨s, value⟩ := by
    rw [List.filter_eq_self, List.forall_mem_map]
    exact fun value _ => beq_self_eq_true s
  rw [values, withGiven, List.filter_append, hall, List.map_append, List.map_map]
  exact congrArg (· ++ _) (List.map_id given)

end Given

end CommandLine

/-! ## The two commands -/

open CommandLine (read_values read_switches read_argument read_stop readWord_of_undashed
  has_withGiven_of_ne
  values_withGiven values_withGiven_of_ne)

/-- **How the rename command is read**, if the command line does not ask for help. -/
theorem Request.readRename_of_line {files : Files} {words : List String} {line : CommandLine}
    (hread : CommandLine.read [renameSwitch, inPlaceSwitch, yesSwitch, helpSwitch] true words =
      .ok line)
    {input : String} {output : Option String} (harguments : line.arguments = input :: output.toList)
    (help : line.has helpSwitch = false) : readRename files words =
      if files.hasPath input then
        if line.values renameSwitch = [] then .error (.switchMissing renameSwitch.names)
        else .ok (.rename input output (line.values renameSwitch) (line.has inPlaceSwitch)
          (line.has yesSwitch))
      else .error (.pathMissing "INPUT_FILE" input) := by
  have hmore : noMore output.toList.tail = .ok () := by cases output <;> rfl
  have hhead : output.toList.head? = output := by cases output <;> rfl
  rw [readRename, hread]
  show (if line.has helpSwitch = true then _ else _) = _
  rw [help, if_neg Bool.false_ne_true, harguments, inputOf]
  by_cases there : files.hasPath input = true
  · rw [if_pos there, if_pos there]
    show (if (!line.has renameSwitch) = true then _ else _) = _
    rw [line.has_eq renameSwitch]
    cases line.values renameSwitch with
    | nil => rfl
    | cons value values =>
      show (noMore output.toList.tail >>= fun _ => _) = _
      rw [hmore, hhead]
      rfl
  · rw [if_neg there, if_neg there]
    rfl

namespace Command

/-- The word that asks for saving in place, or none. -/
def modeWords (inPlace : Bool) : List String := if inPlace then ["--inplace"] else []

/-- The words that name the files. -/
def fileWords (input : String) (output : Option String) : List String :=
  "--" :: input :: output.toList

/-- **A command line that renames** without asking for confirmation. -/
def renameWords (input : String) (output : Option String) (instructions : List String)
    (inPlace : Bool) :
    List String :=
  "rename" :: (instructions.flatMap (fun word => ["-r", word]) ++
    "-y" :: (modeWords inPlace ++ fileWords input output))

/-- **A command line that starts the interactive command.** -/
def interactiveWords (input : String) (output : Option String) (inPlace : Bool) : List String :=
  "interactive" :: (modeWords inPlace ++ fileWords input output)

example : renameWords "a.scd" (some "b.scd") ["A=B"] false =
    ["rename", "-r", "A=B", "-y", "--", "a.scd", "b.scd"] := rfl

theorem read_modeWords {known : List Switch}
    (h : CommandLine.readWord known "--inplace" = .ok (.switches [⟨Request.inPlaceSwitch, ""⟩]))
    (hstop : CommandLine.readWord known "--" = .ok .stop) (inPlace : Bool) (input : String)
    (output : Option String) :
    CommandLine.read known true (modeWords inPlace ++ fileWords input output) =
      .ok ⟨if inPlace then [⟨Request.inPlaceSwitch, ""⟩] else [], input :: output.toList⟩ := by
  have hfiles : CommandLine.read known true (fileWords input output) =
    .ok { arguments := input :: output.toList } :=
    read_stop hstop _
  cases inPlace with
  | false => exact hfiles
  | true =>
    show CommandLine.read known true ("--inplace" :: fileWords input output) = _
    rw [read_switches h, hfiles]
    rfl

/-- **The rename command is asked for**, unless there is no input file or no instruction. -/
theorem read_renameWords (files : Files) (input : String) (output : Option String)
    (instructions : List String)
    (inPlace : Bool) : Request.read files (renameWords input output instructions inPlace) =
      if files.hasPath input then
        if instructions = [] then .error (.switchMissing Request.renameSwitch.names)
        else .ok (.rename input output instructions inPlace true)
      else .error (.pathMissing "INPUT_FILE" input) := by
  -- What stands on the command line beside the instructions.
  let others : CommandLine :=
    ⟨⟨Request.yesSwitch, ""⟩ :: if inPlace then [⟨Request.inPlaceSwitch, ""⟩] else [],
    input :: output.toList⟩
  have hline : CommandLine.read
      [Request.renameSwitch, Request.inPlaceSwitch, Request.yesSwitch, Request.helpSwitch] true
      (instructions.flatMap (fun word => ["-r", word]) ++
        "-y" :: (modeWords inPlace ++ fileWords input output)) =
        .ok (.withGiven (instructions.map fun value => ⟨Request.renameSwitch, value⟩) others) := by
    rw [read_values (s := Request.renameSwitch) rfl, read_switches rfl, read_modeWords rfl rfl]
    rfl
  have hnone : others.values Request.renameSwitch = [] := by cases inPlace <;> rfl
  have hmode : others.has Request.inPlaceSwitch = inPlace := by cases inPlace <;> rfl
  have hyes : others.has Request.yesSwitch = true := rfl
  show Request.readRename files _ = _
  refine (Request.readRename_of_line hline rfl ?_).trans ?_
  · rw [has_withGiven_of_ne _ _ rfl]
    cases inPlace <;> rfl
  · rw [values_withGiven, has_withGiven_of_ne _ _ rfl, has_withGiven_of_ne _ _ rfl,
      hnone, hmode, hyes, List.append_nil]

/-- **A command line that renames into another file** without asking for confirmation, with its
switches behind the names of the files. -/
def renameWordsBehind (input output : String) (instructions : List String) : List String :=
  "rename" :: input :: output :: "-y" :: instructions.flatMap (fun word => ["-r", word])

/-- Files whose names do not begin with a dash need no word before them. -/
theorem read_renameWordsBehind {files : Files} {input output : String}
    (there : files.hasPath input = true)
    (hinput : input.toList.head? ≠ some '-') (houtput : output.toList.head? ≠ some '-')
    {instructions : List String}
    (hne : instructions ≠ []) : Request.read files (renameWordsBehind input output instructions) =
      .ok (.rename input (some output) instructions false true) := by
  have hinstructions : CommandLine.read
      [Request.renameSwitch, Request.inPlaceSwitch, Request.yesSwitch, Request.helpSwitch] true
      (instructions.flatMap fun word => ["-r", word]) =
        .ok (.withGiven (instructions.map fun value => ⟨Request.renameSwitch, value⟩) {}) := by
    rw [← List.append_nil (instructions.flatMap _), read_values (s := Request.renameSwitch) rfl]
    rfl
  have hline : CommandLine.read
      [Request.renameSwitch, Request.inPlaceSwitch, Request.yesSwitch, Request.helpSwitch] true
      (input :: output :: "-y" :: instructions.flatMap fun word => ["-r", word]) =
        .ok (.withGiven ([""].map fun value => ⟨Request.yesSwitch, value⟩)
          (.withGiven (instructions.map fun value => ⟨Request.renameSwitch, value⟩)
            ⟨[], [input, output]⟩)) := by
    rw [read_argument (readWord_of_undashed hinput),
      read_argument (readWord_of_undashed houtput), read_switches rfl,
      hinstructions]
    rfl
  show Request.readRename files _ = _
  refine (Request.readRename_of_line hline (show _ = input :: (some output).toList from rfl)
    ?_).trans ?_
  · rw [has_withGiven_of_ne _ _ rfl, has_withGiven_of_ne _ _ rfl]
    rfl
  · have hnone : CommandLine.values ⟨[], [input, output]⟩ Request.renameSwitch = [] := rfl
    rw [if_pos there, values_withGiven_of_ne _ _ rfl, values_withGiven, hnone, List.append_nil,
      if_neg hne, has_withGiven_of_ne _ _ rfl, has_withGiven_of_ne _ _ rfl]
    rfl

/-- **The interactive command is asked for**, unless there is no input file. -/
theorem read_interactiveWords (files : Files) (input : String) (output : Option String)
    (inPlace : Bool) :
    Request.read files (interactiveWords input output inPlace) =
      if files.hasPath input then .ok (.interactive input output inPlace)
      else .error (.pathMissing "INPUT_FILE" input) := by
  show Request.readInteractive files _ = _
  rw [Request.readInteractive, read_modeWords rfl rfl]
  simp only [bind, Except.bind, Request.inputOf]
  by_cases there : files.hasPath input = true
  · cases inPlace <;> cases output <;> simp only [there] <;> rfl
  · cases inPlace <;> simp only [there] <;> rfl

end Command

end StationNaming
