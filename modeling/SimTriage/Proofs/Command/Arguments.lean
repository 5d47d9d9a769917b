import SimTriage.Proofs.Command.Options
import SimTriage.Proofs.Text.Integer

/-!
What single arguments come to. A word in front of all others is the source and has no part in how
the others are followed. Options under their long names, values behind equals signs, change the
options one after the other.
-/

set_option autoImplicit false

namespace SimTriage.Command

/-- The argument is a word wherever it stands in front of the mark. -/
def IsWord (text : Text) : Prop := text ≠ "--" ∧ Argument.classify text = .ok (.word text)

namespace Request

/-- The request, from another source. -/
def withSource (source : Text) : Request → Request
  | .help => .help
  | .run options => .run { options with source }

variable {options : Options} {source : Text} {texts : List Text}

section Steps

variable {reading : Reading} {given : Given} {arguments : List Argument} {text : Text}

theorem follow_value (takes : given.switch.takesValue = true)
    (attached : given.attached = some text) (present : text ≠ "--") :
    follow reading (.option given :: arguments) =
      setValue reading.options given.switch text >>= fun options =>
        follow { reading with options } arguments := by
  obtain ⟨switch, long, attached⟩ := given
  cases attached
  simp only [follow, if_pos takes, if_neg present]

theorem follow_void (takes : given.switch.takesValue = true)
    (attached : given.attached = some "--") :
    follow reading (.option given :: arguments) =
      follow { reading with options := setVoid reading.options given.switch } arguments := by
  obtain ⟨switch, long, attached⟩ := given
  cases attached
  simp only [follow, if_pos takes, if_true]

theorem follow_flag (takes : given.switch.takesValue = false) (attached : given.attached = none)
    (notHelp : given.switch ≠ .help) :
    follow reading (.option given :: arguments) =
      follow { reading with options := setFlag reading.options given.switch } arguments := by
  rw [follow.eq_def]
  simp only [takes, attached, Bool.false_eq_true, if_false, if_neg notHelp]

end Steps

theorem setValue_source (options : Options) (switch : Switch) (text source : Text) :
    setValue { options with source } switch text =
      (fun changed => { changed with source }) <$> setValue options switch text := by
  cases switch with
  | kinds =>
      simp only [setValue]
      cases operand .kinds readKinds text <;> rfl
  | limit =>
      simp only [setValue]
      cases operand .limit readLimit text <;> rfl
  | contract | part | help | failedOnly | json | summary | serve => rfl

theorem setVoid_source (options : Options) (switch : Switch) (source : Text) :
    setVoid { options with source } switch = { setVoid options switch with source } := by
  cases switch <;> rfl

theorem setFlag_source (options : Options) (switch : Switch) (source : Text) :
    setFlag { options with source } switch = { setFlag options switch with source } := by
  cases switch <;> rfl

/-- The reading, with another source. -/
def Reading.withSource (source : Text) (reading : Reading) : Reading :=
  { reading with options := { reading.options with source } }

theorem finish_source {reading : Reading} (known : reading.hasSource = true)
    (arguments : List Argument) (source : Text) :
    finish (reading.withSource source) arguments =
      withSource source <$> finish reading arguments := by
  simp only [finish, Reading.withSource, known, if_true]
  cases reading.extra ++ arguments.map Argument.text <;> rfl

theorem finish_word (source : Text) (arguments : List Argument) :
    finish ⟨{}, false, []⟩ (.word source :: arguments) =
      withSource source <$> finish ⟨{}, false, []⟩ (.word "-" :: arguments) := by
  rcases arguments with _ | ⟨_ | _ | _ | _, arguments⟩
  case cons.mark => cases arguments <;> rfl
  all_goals rfl

/-- Once the source is known, the arguments are followed whatever it is. -/
theorem follow_source {reading : Reading} (known : reading.hasSource = true)
    (arguments : List Argument) (source : Text) :
    follow (reading.withSource source) arguments =
      withSource source <$> follow reading arguments := by
  -- no argument looks at the source: it hands the options on, changes others of them, or ends it
  fun_induction follow reading arguments with
  | case1 reading => exact finish_source known [] source
  | case2 reading arguments => exact finish_source known (.mark :: arguments) source
  | case3 reading text arguments ih => exact ih known
  | case4 reading text arguments last =>
      rw [follow, if_pos last]
      exact finish_source known (.word text :: arguments) source
  | case5 reading text arguments more _ ih =>
      have stillKnown : (reading.withSource source).hasSource = true := known
      rw [follow, if_neg more, if_pos stillKnown]
      exact ih known
  | case6 reading text arguments more unknown ih => exact absurd known unknown
  | case7 reading given takes arguments attached ih =>
      rw [follow_void takes attached]
      simp only [Reading.withSource, setVoid_source]
      exact ih known
  | case8 reading given takes text arguments attached present ih =>
      rw [follow_value takes attached present]
      simp only [Reading.withSource, setValue_source, map_bind, bind_map_left]
      exact bind_congr fun changed => ih changed known
  | case9 reading given takes text arguments attached ih =>
      obtain ⟨switch, long, attached⟩ := given
      cases attached
      simp only [follow, if_pos takes, Reading.withSource, setValue_source, map_bind, bind_map_left]
      exact bind_congr fun changed => ih changed known
  | case10 reading given arguments takes attached ends =>
      obtain ⟨switch, long, attached⟩ := given
      cases attached
      simp only [follow, if_pos takes]
      rfl
  | case11 reading given arguments takes attached isHelp =>
      rw [follow.eq_def]
      simp only [if_neg takes, attached, if_pos isHelp]
      rfl
  | case12 reading given arguments takes attached notHelp ih =>
      rw [follow_flag (by simpa using takes) attached notHelp]
      simp only [Reading.withSource, setFlag_source]
      exact ih known
  | case13 reading given arguments takes text attached long =>
      obtain ⟨switch, long, attached⟩ := given
      cases attached
      simp only [follow, if_neg takes, if_pos long]
      rfl
  | case14 reading given arguments takes text attached short =>
      obtain ⟨switch, long, attached⟩ := given
      cases attached
      simp only [follow, if_neg takes, if_neg short]
      cases checkRepeated text <;> rfl

/-- A word that comes first is the source of the request. -/
theorem ofArguments_source (isWord : IsWord source) (texts : List Text) :
    ofArguments (source :: texts) = withSource source <$> ofArguments ("-" :: texts) := by
  obtain ⟨unmarked, classified⟩ := isWord
  have split : ∀ first : Text, first ≠ "--" → Argument.classify first = .ok (.word first) →
      ofArguments (first :: texts) = Argument.classifyAll texts >>= fun arguments =>
        follow ⟨{}, false, []⟩ (.word first :: arguments) := by
    intro first unmarked classified
    simp only [ofArguments, Argument.classifyAll, if_neg unmarked, classified]
    cases Argument.classifyAll texts <;> rfl
  rw [split source unmarked classified, split "-" (by decide) rfl, map_bind]
  refine bind_congr fun arguments => ?_
  cases last : arguments.any isOption with
  | true =>
      have known : (⟨{}, true, []⟩ : Reading).hasSource = true := rfl
      simp only [follow, last, Bool.not_true, Bool.false_eq_true, if_false]
      exact follow_source known arguments source
  | false =>
      simp only [follow, last, Bool.not_false, if_true]
      exact finish_word source arguments

end Request

section Long

variable {switch : Switch} {given : Given} {text value : Text} {options : Options}

theorem Switch.not_mem_name (switch : Switch) : '=' ∉ switch.name := by cases switch <;> decide

theorem Switch.exactly?_name (switch : Switch) : exactly? switch.name = some switch := by
  cases switch <;> decide

/-- No option has an equals sign in its name. -/
theorem Switch.exactly?_of_mem (equals : '=' ∈ text) : exactly? text = none := by
  have notShort : text ≠ "-h" := by
    rintro rfl
    exact absurd equals (by decide)
  rw [exactly?, if_neg notShort, List.find?_eq_none]
  intro switch _ same
  have own : switch.name = text := by simpa using same
  exact switch.not_mem_name (own ▸ equals)

/-- The argument that gives an option under its long name, its value behind an equals sign. -/
def Given.written (given : Given) : Text :=
  match given.attached with
  | none => given.switch.name
  | some value => given.switch.name ++ '=' :: value

/-- The long name is more than two hyphens. -/
theorem Switch.exists_name (switch : Switch) : ∃ c rest, switch.name = '-' :: '-' :: c :: rest := by
  cases switch <;> exact ⟨_, _, rfl⟩

theorem Given.written_ne_mark (given : Given) : given.written ≠ "--" := by
  obtain ⟨c, rest, named⟩ := given.switch.exists_name
  unfold Given.written
  rw [named]
  cases given.attached <;> simp

theorem Argument.splitValue_written (given : Given) :
    splitValue given.written = (given.switch.name, given.attached) := by
  have inside : ∀ c ∈ given.switch.name, decide (c ≠ '=') = true := by
    intro c member
    rw [decide_eq_true_iff]
    rintro rfl
    exact given.switch.not_mem_name member
  unfold splitValue Given.written
  cases given.attached with
  | none =>
      have whole : (given.switch.name ++ []).span (· ≠ '=') = (given.switch.name, []) :=
        Text.span_run inside (by simp)
      rw [List.append_nil] at whole
      rw [whole]
  | some value => rw [Text.span_run inside (by simp)]

theorem Argument.classify_of_exactly {tail : Text}
    (found : Switch.exactly? ('-' :: '-' :: tail) = some switch) :
    classify ('-' :: '-' :: tail) = .ok (.option ⟨switch, true, none⟩) := by
  simp [classify, found]

theorem Argument.classify_of_splitValue {tail name : Text} {attached : Option Text}
    (notWhole : Switch.exactly? ('-' :: '-' :: tail) = none)
    (split : splitValue ('-' :: '-' :: tail) = (name, attached))
    (found : Switch.exactly? name = some switch) :
    classify ('-' :: '-' :: tail) = .ok (.option ⟨switch, true, attached⟩) := by
  simp [classify, notWhole, split, found]

/-- An option is read as it is written. -/
theorem Argument.classify_written (long : given.long = true) :
    classify given.written = .ok (.option given) := by
  obtain ⟨c, rest, named⟩ := given.switch.exists_name
  have split := splitValue_written given
  have found := given.switch.exactly?_name
  obtain ⟨switch, _, attached⟩ := given
  cases long
  cases attached with
  | none =>
      have whole : Given.written ⟨switch, true, none⟩ = '-' :: '-' :: c :: rest := named
      rw [whole]
      exact classify_of_exactly (by rwa [← whole])
  | some value =>
      have whole : Given.written ⟨switch, true, some value⟩ =
          '-' :: '-' :: c :: (rest ++ '=' :: value) := by
        rw [Given.written, named]
        rfl
      rw [whole] at split ⊢
      exact classify_of_splitValue (Switch.exactly?_of_mem (by simp)) split found

theorem Argument.classifyAll_written {givens : List Given}
    (long : ∀ given ∈ givens, given.long = true) :
    classifyAll (givens.map Given.written) = .ok (givens.map .option) := by
  induction givens with
  | nil => rfl
  | cons given givens ih =>
      obtain ⟨own, others⟩ := List.forall_mem_cons.mp long
      rw [List.map_cons, classifyAll, if_neg given.written_ne_mark, classify_written own, ih others]
      rfl

/-- The option changes the options: it has its value, or needs none. -/
inductive Given.IsSetting : Given → Prop
  | value {switch : Switch} {text : Text} (takes : switch.takesValue = true)
      (present : text ≠ "--") : IsSetting ⟨switch, true, some text⟩
  | flag {switch : Switch} (takes : switch.takesValue = false) (notHelp : switch ≠ .help) :
      IsSetting ⟨switch, true, none⟩

/-- The options with one more option set. -/
def Options.set (options : Options) (given : Given) : Except Misuse Options :=
  match given.attached with
  | some text => Request.setValue options given.switch text
  | none => .ok (Request.setFlag options given.switch)

theorem Given.IsSetting.long (setting : given.IsSetting) : given.long = true := by
  cases setting <;> rfl

theorem Given.IsSetting.follow_eq {reading : Request.Reading} (setting : given.IsSetting)
    (arguments : List Argument) :
    Request.follow reading (.option given :: arguments) =
      reading.options.set given >>= fun options =>
        Request.follow { reading with options } arguments := by
  cases setting with
  | value takes present => exact Request.follow_value takes rfl present
  | flag takes notHelp => exact Request.follow_flag takes rfl notHelp

/-- Behind the source, options that change the options do so in order. -/
theorem Request.follow_settings {givens : List Given} (settings : ∀ given ∈ givens, given.IsSetting)
    (options : Options) :
    follow ⟨options, true, []⟩ (givens.map .option) =
      .run <$> givens.foldlM Options.set options := by
  induction givens generalizing options with
  | nil =>
      rw [List.map_nil, follow]
      rfl
  | cons given givens ih =>
      obtain ⟨own, others⟩ := List.forall_mem_cons.mp settings
      rw [List.map_cons, own.follow_eq, List.foldlM_cons, map_bind]
      exact bind_congr fun changed => ih others changed

theorem Request.ofArguments_written {givens : List Given} (filled : givens ≠ [])
    (settings : ∀ given ∈ givens, given.IsSetting) :
    ofArguments ("-" :: givens.map Given.written) = .run <$> givens.foldlM Options.set {} := by
  have classified := Argument.classifyAll_written fun given member => (settings given member).long
  have source : Argument.classify "-" = .ok (.word "-") := rfl
  have more : (givens.map Argument.option).any isOption = true := by
    obtain ⟨given, givens, rfl⟩ := List.exists_cons_of_ne_nil filled
    rfl
  rw [ofArguments, Argument.classifyAll, if_neg (by decide), source, classified]
  change follow ⟨{}, false, []⟩ (.word "-" :: givens.map .option) = _
  rw [follow, more, if_neg (by decide), if_neg (by decide)]
  exact follow_settings settings {}

/-- The numeral of a number is a limit, if it is not too long. -/
theorem Request.readLimit_ofNat {n : Nat} (positive : 0 < n)
    (short : (Text.ofNat n).length ≤ Text.maxDigits) :
    readLimit (Text.ofNat n) = .ok (n : Int) := by
  rw [readLimit, Text.readInteger?_ofNat short]
  exact if_neg (by omega)

end Long

end SimTriage.Command
