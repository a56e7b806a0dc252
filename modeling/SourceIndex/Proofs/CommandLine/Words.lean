import SourceIndex.CommandLine.Command
import SourceIndex.Proofs.Text.Integer

/-!
# Command lines that are read as they are meant

A word that begins with a dash may be an option, the beginning of one, or a number; any other word
is an operand, or the value of the option before it.  So a path from the root and a name without a
dash in front of it are taken as they are (`Layout.token_of_plain`), and so is an integer, even if it
is negative (`Layout.token_number`).
-/

namespace SourceIndex.CommandLine

variable {l : Layout} {word : String} {rest : List String}

/-! ## Words -/

/-- Whether a word cannot be taken for an option. -/
def isPlain (word : String) : Bool := word.toList.head? != some '-'

theorem Layout.token_of_plain (l : Layout) (h : isPlain word = true) :
    l.token word = .ok (.plain word) := by
  unfold Layout.token
  split
  · next rest hw => simp [isPlain, hw] at h
  · rfl

theorem ne_of_plain (h : isPlain word = true) : word ≠ "--" := by
  rintro rfl
  cases h

theorem Layout.tokens_cons (h : word ≠ "--") :
    l.tokens (word :: rest) = (do
      let token ← l.token word
      let tokens ← l.tokens rest
      return token :: tokens) := by
  rw [Layout.tokens]
  exact h

/-! ## Numbers -/

/-- Whether no option of a layout has a digit right behind its dash. -/
def Layout.sparesNumbers (l : Layout) : Bool :=
  l.options.all (fun o => o.names.all (fun name => !(name.toList[1]?.any Char.isDigit)))

variable {c : Char} {digits : List Char}

theorem Layout.not_mem_names {o : Opt} (h : l.sparesNumbers = true) (ho : o ∈ l.options)
    (hc : c.isDigit = true) : String.ofList ('-' :: c :: digits) ∉ o.names := by
  intro hm
  have hname := List.all_eq_true.mp (List.all_eq_true.mp h o ho) _ hm
  simp [hc] at hname

theorem Layout.option?_of_digit (h : l.sparesNumbers = true) (hc : c.isDigit = true) :
    l.option? (String.ofList ('-' :: c :: digits)) = none := by
  refine List.find?_eq_none.mpr ?_
  intro o ho hm
  exact not_mem_names h ho hc (List.contains_iff_mem.mp hm)

theorem Layout.candidates_of_digit (h : l.sparesNumbers = true) (hc : c.isDigit = true) :
    l.candidates ('-' :: c :: digits) = [] := by
  unfold Layout.candidates
  split
  · next hw =>
    cases hw
    cases hc
  · next d rest _ hw =>
    cases hw
    refine List.map_eq_nil_iff.mpr (List.filter_eq_nil_iff.mpr ?_)
    intro o ho hshort
    have hmem : String.ofList ['-', c] ∈ o.names := by
      rw [Opt.names, eq_of_beq hshort]
      exact List.mem_cons_self
    exact not_mem_names h ho hc hmem
  · rfl

theorem isNegativeNumber_of_isDigit (hne : digits ≠ []) (h : ∀ c ∈ digits, c.isDigit = true) :
    isNegativeNumber ('-' :: digits) = true := by
  have hlast : dropLineFeed ('-' :: digits) = '-' :: digits := by
    refine if_neg ?_
    rw [beq_iff_eq, List.getLast?_cons_of_ne_nil hne]
    intro hfeed
    cases h '\n' (List.mem_of_getLast? hfeed)
  have hall : digits.dropWhile (fun c => (Text.digitValue? c).isSome) = [] := by
    refine List.dropWhile_eq_nil_iff.mpr ?_
    intro c hc
    rw [Text.digitValue?_of_isDigit (h c hc)]
    rfl
  simp only [isNegativeNumber, hlast, hall]
  simpa using hne

theorem divide_of_not_mem {text : List Char} (h : '=' ∉ text) : divide text = (text, .nothing) := by
  have hnone : text.dropWhile (· != '=') = [] := by
    refine List.dropWhile_eq_nil_iff.mpr ?_
    intro c hc
    exact bne_iff_ne.mpr (fun he => h (he ▸ hc))
  rw [divide, hnone]

/-- A number is an operand, though it may begin with a dash. -/
theorem Layout.token_number (h : l.sparesNumbers = true) (n : Int) :
    l.token (Text.number n) = .ok (.plain (Text.number n)) := by
  have hdigits := Text.isDigit_toDigits n.natAbs
  obtain ⟨c, digits, hform⟩ :=
    List.exists_cons_of_ne_nil (Nat.toDigits_ne_nil (n := n.natAbs) (b := 10))
  rw [hform] at hdigits
  have hc : c.isDigit = true := hdigits c List.mem_cons_self
  -- Only a negative number begins with a dash; no option does so with a digit behind it.
  by_cases hneg : n < 0
  · have hnumber : Text.number n = String.ofList ('-' :: c :: digits) := by
      rw [Text.number, Text.decimal, if_pos hneg, hform]
    have hequals : '=' ∉ '-' :: c :: digits := by
      intro hm
      cases hdigits '=' (List.mem_of_ne_of_mem (by decide) hm)
    have hnegative := isNegativeNumber_of_isDigit (List.cons_ne_nil c digits) hdigits
    rw [hnumber, Layout.token, String.toList_ofList]
    simp only [option?_of_digit h hc, List.isEmpty_cons, Layout.dashed, divide_of_not_mem hequals,
      candidates_of_digit h hc, hnegative]
    rfl
  · have hnumber : Text.number n = String.ofList (c :: digits) := by
      rw [Text.number, Text.decimal, if_neg hneg, hform]
    refine token_of_plain l ?_
    rw [isPlain, hnumber, String.toList_ofList, List.head?_cons, bne_iff_ne]
    intro he
    rw [Option.some.inj he] at hc
    cases hc

/-! ## Command lines -/

theorem Layout.exists_tokens {words : List String}
    (h : ∀ word ∈ words, ∃ token, l.token word = .ok token) :
    ∃ tokens, l.tokens words = .ok tokens := by
  induction words with
  | nil => exact ⟨[], rfl⟩
  | cons word rest ih =>
    by_cases hend : word = "--"
    · subst hend
      exact ⟨_, rfl⟩
    · obtain ⟨token, htoken⟩ := h word List.mem_cons_self
      obtain ⟨tokens, htokens⟩ := ih (fun w hw => h w (List.mem_cons_of_mem word hw))
      refine ⟨token :: tokens, ?_⟩
      rw [tokens_cons hend, htoken, htokens]
      rfl

/-- A command line that begins with the name of a command is read as the command reads the rest. -/
theorem Invocation.read_command {name : String} {words : List String}
    {command : Except Refusal Command} (hn : isPlain name = true)
    (ht : ∀ word ∈ words, ∃ token, programLayout.token word = .ok token)
    (hc : Command.read? name words = some command) :
    Invocation.read (name :: words) = command.map (Invocation.mk false) := by
  have hname := Layout.token_of_plain programLayout hn
  obtain ⟨tokens, htokens⟩ := Layout.exists_tokens
    (List.forall_mem_cons.mpr ⟨⟨_, hname⟩, ht⟩)
  rw [Invocation.read, htokens]
  show Invocation.readFrom _ (name :: words) = _
  rw [Invocation.readFrom, hname]
  · simp only [bind, Except.bind, hc]
    cases command <;> rfl
  · exact ne_of_plain hn

theorem Given.operand_of_ne (values : List (String × Value)) (o : Operand) (expected : List Operand)
    (afterOperand afterEnd surplus : Bool) (h : word ≠ "--") :
    (Given.mk values (o :: expected) afterOperand afterEnd surplus).operand word
      = (o.kind.value word).map (fun value =>
          ⟨(o.name, value) :: values, expected, true, false, surplus⟩) := by
  have hno : (word == "--" && !afterEnd) = false := by rw [beq_false_of_ne h, Bool.false_and]
  simp only [Given.operand, hno, Bool.false_eq_true, if_false]
  cases o.kind.value word <;> rfl

theorem number_ne (n : Int) : Text.number n ≠ "--" := by
  intro he
  have hform : Text.decimal n = ['-', '-'] := by
    rw [← String.toList_ofList (l := Text.decimal n)]
    exact congrArg String.toList he
  have hdash : '-' ∈ Nat.toDigits 10 n.natAbs := by
    unfold Text.decimal at hform
    split at hform
    · rw [(List.cons.inj hform).2]
      exact List.mem_cons_self
    · rw [hform]
      exact List.mem_cons_self
  cases Text.isDigit_toDigits _ _ hdash

/-- The words that ask for the function around a line. -/
def atWords (file : String) (line : Int) (json : Bool) : List String :=
  ["at", file, Text.number line] ++ if json then ["--json"] else []

theorem read_outline {file : String} (hf : isPlain file = true) :
    Invocation.read ["outline", file, "--json"] = .ok ⟨false, .outline file none true⟩ := by
  have hcommand : Command.read? "outline" [file, "--json"]
      = some (.ok (.outline file none true)) := by
    have htokens : (commandLayout [languageOption, jsonOption] [⟨"file", .text, true⟩]).tokens
        [file, "--json"] = .ok [.plain file, .option jsonOption .nothing] := by
      rw [Layout.tokens_cons (ne_of_plain hf), Layout.token_of_plain _ hf]
      rfl
    simp only [Command.read?, Layout.read, htokens, bind, Except.bind, Given.read]
    simp only [commandLayout, Given.operand_of_ne _ _ _ _ _ _ (ne_of_plain hf)]
    rfl
  refine Invocation.read_command rfl ?_ hcommand
  rw [List.forall_mem_cons, List.forall_mem_singleton]
  exact ⟨⟨_, Layout.token_of_plain _ hf⟩, ⟨.unknown, by decide +kernel⟩⟩

theorem read_find {name root : String} (hn : isPlain name = true) (hr : isPlain root = true) :
    Invocation.read ["find", name, "--path", root] = .ok ⟨false, .find name (some root)⟩ := by
  have hcommand : Command.read? "find" [name, "--path", root]
      = some (.ok (.find name (some root))) := by
    have htokens : (commandLayout [⟨"--path", none, .text⟩] [⟨"name", .text, true⟩]).tokens
        [name, "--path", root]
          = .ok [.plain name, .option ⟨"--path", none, .text⟩ .nothing, .plain root] := by
      rw [Layout.tokens_cons (ne_of_plain hn), Layout.token_of_plain _ hn,
        Layout.tokens_cons (by decide), Layout.tokens_cons (ne_of_plain hr),
        Layout.token_of_plain _ hr]
      rfl
    simp only [Command.read?, Layout.read, htokens, bind, Except.bind, Given.read]
    simp only [commandLayout, Given.operand_of_ne _ _ _ _ _ _ (ne_of_plain hn)]
    rfl
  refine Invocation.read_command rfl ?_ hcommand
  rw [List.forall_mem_cons, List.forall_mem_cons, List.forall_mem_singleton]
  exact ⟨⟨_, Layout.token_of_plain _ hn⟩, ⟨.unknown, by decide +kernel⟩,
    ⟨_, Layout.token_of_plain _ hr⟩⟩

/-- The line may be negative, but it is refused if it has too many digits. -/
theorem read_at {file : String} (hf : isPlain file = true) (line : Int) (json : Bool) :
    Invocation.read (atWords file line json)
      = if Text.isReadable line then .ok ⟨false, .atLine file (some line) none json⟩
        else .error .usage := by
  have hcommand : Command.read? "at" (file :: Text.number line :: if json then ["--json"] else [])
      = some (if Text.isReadable line then .ok (.atLine file (some line) none json)
        else .error .usage) := by
    have htokens : (commandLayout [languageOption, jsonOption]
        [⟨"file", .text, true⟩, ⟨"line", .integer, true⟩]).tokens
          (file :: Text.number line :: if json then ["--json"] else [])
        = .ok (.plain file :: .plain (Text.number line) ::
            if json then [.option jsonOption .nothing] else []) := by
      rw [Layout.tokens_cons (ne_of_plain hf), Layout.token_of_plain _ hf,
        Layout.tokens_cons (number_ne line), Layout.token_number (by decide +kernel)]
      cases json <;> rfl
    have hvalue : Kind.value .integer (Text.number line)
        = if Text.isReadable line then .ok (.integer line) else .error .usage := by
      rw [Kind.value, Text.number, String.toList_ofList, Text.readInteger?_decimal]
      cases Text.isReadable line <;> rfl
    simp only [Command.read?, Layout.read, htokens, bind, Except.bind, Given.read]
    simp only [commandLayout, Given.operand_of_ne _ _ _ _ _ _ (ne_of_plain hf),
      show Kind.value .text file = .ok (.text file) from rfl, Except.map,
      Given.operand_of_ne _ _ _ _ _ _ (number_ne line), hvalue]
    cases Text.isReadable line <;> cases json <;> rfl
  have hprogram : ∀ word ∈ file :: Text.number line :: if json then ["--json"] else [],
      ∃ token, programLayout.token word = .ok token := by
    rw [List.forall_mem_cons, List.forall_mem_cons]
    refine ⟨⟨_, Layout.token_of_plain _ hf⟩, ⟨_, Layout.token_number (by decide +kernel) line⟩, ?_⟩
    cases json with
    | false => nofun
    | true => exact List.forall_mem_singleton.mpr ⟨.unknown, by decide +kernel⟩
  refine (Invocation.read_command rfl hprogram hcommand).trans ?_
  cases Text.isReadable line <;> rfl

end SourceIndex.CommandLine
