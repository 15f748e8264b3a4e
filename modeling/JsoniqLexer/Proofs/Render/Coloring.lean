import JsoniqLexer.Cli.Run
import JsoniqLexer.Proofs.Jsoniq.Termination
import JsoniqLexer.Proofs.Text.Beginnings

/-!
# What colors change

Without its codes, a colored text is the plain text (`withoutCodes_render`). The line break that the
program adds is another matter: it is added unless the output ends in one, and the output in color
ends in a code where the last token is colored. A last token that ends in a line break is blank if
nothing is open after it, and otherwise belongs to a comment or a string, which is colored
(`Lexer.exists_getLast?_newline`). So the two outputs agree up to the codes where nothing is open at
the end, and else a line break is always added to the colored one (`highlight_changes_colors`).
-/

set_option autoImplicit false

namespace JsoniqLexer

open TokenStream Token Jsoniq

namespace Ansi

open Text

/-! ## Codes -/

/-- The codes that stand in colored text. -/
def codes : List Text :=
  ["\x1b[34m".toList, "\x1b[32m".toList, "\x1b[2m".toList, "\x1b[0m".toList]

/-- What follows the code that a text begins with. -/
def afterCode? (text : Text) : Option Text := codes.findSome? fun code => after? code text

theorem length_lt_of_afterCode? {text rest : Text} (h : afterCode? text = some rest) :
    rest.length < text.length := by
  obtain ⟨code, hcode, hafter⟩ := List.exists_of_findSome?_eq_some h
  have hlength := length_le_of_after? hafter
  have hpos : ∀ code ∈ codes, 0 < code.length := by decide
  have hcode := hpos code hcode
  omega

/-- A text with all codes deleted, from left to right. -/
def withoutCodes : Text → Text
  | [] => []
  | c :: text =>
      match _h : afterCode? (c :: text) with
      | some rest => withoutCodes rest
      | none => c :: withoutCodes text
termination_by text => text.length
decreasing_by
  · exact length_lt_of_afterCode? _h
  · simp

/-- No code begins with another character than the escape character. -/
theorem afterCode?_cons_ne {c : Char} (h : c ≠ '\x1b') (text : Text) :
    afterCode? (c :: text) = none := by
  rw [afterCode?, List.findSome?_eq_none_iff]
  intro code hcode
  have hall : ∀ code ∈ codes, code.head? = some '\x1b' := by decide
  obtain ⟨name, hname⟩ := List.head?_eq_some_iff.1 (hall code hcode)
  rw [hname]
  exact after?_cons_ne (Ne.symm h) name text

theorem afterCode?_append {code : Text} (h : code ∈ codes) (rest : Text) :
    afterCode? (code ++ rest) = some rest := by
  simp only [codes, List.mem_cons, List.not_mem_nil, or_false] at h
  rcases h with rfl | rfl | rfl | rfl
  · rfl
  · rfl
  · rfl
  · rfl

theorem withoutCodes_code {code : Text} (h : code ∈ codes) (rest : Text) :
    withoutCodes (code ++ rest) = withoutCodes rest := by
  have hafter := afterCode?_append h rest
  cases htext : code ++ rest with
  | nil =>
      rw [htext] at hafter
      cases hafter
  | cons c text =>
      rw [htext] at hafter
      rw [withoutCodes]
      split
      · next found hfound =>
        rw [hafter] at hfound
        rw [Option.some.inj hfound]
      · next hnone =>
        rw [hafter] at hnone
        cases hnone

/-- A text without the escape character has no codes to be deleted. -/
theorem withoutCodes_append {text : Text} (h : '\x1b' ∉ text) (rest : Text) :
    withoutCodes (text ++ rest) = text ++ withoutCodes rest := by
  induction text with
  | nil => rfl
  | cons c text ih =>
      obtain ⟨hc, htext⟩ := List.ne_and_not_mem_of_not_mem_cons h
      rw [List.cons_append, withoutCodes]
      split
      · next found hfound =>
        rw [afterCode?_cons_ne (Ne.symm hc)] at hfound
        cases hfound
      · rw [ih htext, List.cons_append]

/-! ## Colored tokens -/

/-- Tokens of the category are shown in a color. -/
def isColored (category : Category) : Bool := (Color.of? category).isSome

theorem renderToken_of_not_isColored {t : Token} (h : isColored t.category = false)
    (p : Palette) : renderToken p t = t.lexeme := by
  have hcode : p.codeOf t.category = [] := by
    rw [isColored, Option.isSome_eq_false_iff, Option.isNone_iff_eq_none] at h
    simp [Palette.codeOf, h]
  simp [renderToken, hcode]

/-- A token is written between the code of its color and the one that resets. -/
theorem renderToken_of_color {t : Token} {color : Color} (h : Color.of? t.category = some color) :
    renderToken .on t = Palette.on.code color ++ (t.lexeme ++ Palette.on.reset) := by
  have hne : Palette.on.code color ≠ [] := by
    cases color <;> decide
  simp [renderToken, Palette.codeOf, h, hne]

theorem renderToken_of_isColored {t : Token} (h : isColored t.category = true) :
    ∃ code ∈ codes, renderToken .on t = code ++ (t.lexeme ++ Palette.on.reset) := by
  obtain ⟨color, hcolor⟩ := Option.isSome_iff_exists.1 h
  have hcodes : Palette.on.code color ∈ codes := by
    cases color <;> decide
  exact ⟨Palette.on.code color, hcodes, renderToken_of_color hcolor⟩

/-- Without codes, nothing is added to the lexemes. -/
theorem render_off (tokens : List Token) : render tokens .off = textOf tokens := by
  have htoken : renderToken .off = Token.lexeme := by
    funext t
    have hcode : Palette.off.codeOf t.category = [] := by
      rw [Palette.codeOf]
      split
      · next color _ => cases color <;> rfl
      · rfl
    simp [renderToken, hcode]
  rw [render, htoken, textOf]

/-- Without its codes, a colored text is the plain text. -/
theorem withoutCodes_render {tokens : List Token} (h : '\x1b' ∉ textOf tokens) (rest : Text) :
    withoutCodes (render tokens .on ++ rest) = textOf tokens ++ withoutCodes rest := by
  induction tokens with
  | nil => rfl
  | cons t ts ih =>
      rw [textOf_cons, List.mem_append, not_or] at h
      obtain ⟨hlexeme, hothers⟩ := h
      have hrender : render (t :: ts) .on = renderToken .on t ++ render ts .on := rfl
      rw [hrender, textOf_cons, List.append_assoc, List.append_assoc, ← ih hothers]
      cases hcolor : isColored t.category with
      | false =>
          rw [renderToken_of_not_isColored hcolor]
          exact withoutCodes_append hlexeme _
      | true =>
          have hreset : Palette.on.reset ∈ codes := by decide
          obtain ⟨code, hcode, hwritten⟩ := renderToken_of_isColored hcolor
          rw [hwritten, List.append_assoc, List.append_assoc, withoutCodes_code hcode,
            withoutCodes_append hlexeme, withoutCodes_code hreset]

/-- A colored text ends in a line break where the last token does and is not colored. -/
theorem getLast?_render_concat {ts : List Token} {t : Token} (h : t.lexeme ≠ []) :
    (render (ts ++ [t]) .on).getLast? = some '\n' ↔
      t.lexeme.getLast? = some '\n' ∧ isColored t.category = false := by
  have hrender : render (ts ++ [t]) .on = render ts .on ++ renderToken .on t := by
    simp [render]
  rw [hrender]
  cases hcolor : isColored t.category with
  | false =>
      rw [renderToken_of_not_isColored hcolor, List.getLast?_append_of_ne_nil _ h]
      simp
  | true =>
      obtain ⟨code, -, hwritten⟩ := renderToken_of_isColored hcolor
      have hreset : Palette.on.reset ≠ [] ∧ Palette.on.reset.getLast? = some 'm' := by decide
      rw [hwritten, ← List.append_assoc, ← List.append_assoc,
        List.getLast?_append_of_ne_nil _ hreset.1, hreset.2]
      simp

end Ansi

/-! ## The last token -/

open Ansi

namespace Jsoniq

/-- From the outside, only what is not colored may take a line break. -/
theorem isColored_of_newline {line : Line} (h : line ∈ lines .root)
    (hnewline : line.form.regex.letters.contains '\n' = true) :
    ∃ category, line.action.category? = some category ∧ isColored category = false := by
  have hall : ∀ l ∈ lines .root, l.form.regex.letters.contains '\n' = true →
      l.action.category?.map isColored = some false := by
    decide
  exact Option.map_eq_some_iff.1 (hall line h hnewline)

/-- Nothing is left by a line break. -/
theorem not_isPop_of_newline {state : State} {line : Line} (h : line ∈ lines state)
    (hnewline : line.form.regex.letters.contains '\n' = true) : line.action.isPop = false := by
  have hall : ∀ s ∈ State.all, ∀ l ∈ lines s, l.form.regex.letters.contains '\n' = true →
      l.action.isPop = false := by
    decide
  exact hall state state.mem_all line h hnewline

end Jsoniq

namespace Lexer

variable {l next last : Lexer} {kind : State} {t : Token}

/-- A token with a line break after which nothing is open is not colored. -/
theorem Nests.not_isColored_of_newline (h : l.Nests kind) (hstep : l.step = (.ok (some t), next))
    (hnewline : '\n' ∈ t.lexeme) (hinner : next.inner = []) : isColored t.category = false := by
  obtain ⟨line, hline⟩ := h.exists_stepsBy hstep
  have hletter := Pattern.Regex.contains_letters hline.matches_lexeme '\n' hnewline
  have houtside : l.inner = [] := by
    have hpop := not_isPop_of_newline hline.mem hletter
    rw [hline.inner] at hinner
    exact inner_eq_nil_of_transition hpop hinner
  have hmem := hline.mem
  rw [h.state_eq_root houtside] at hmem
  obtain ⟨category, hcategory, hcolor⟩ := isColored_of_newline hmem hletter
  rw [hline.category, Grammar.categoryOf_eq hcategory]
  exact hcolor

/-- Of a text that ends in a line break, the last token is colored only if something is open at the
end. -/
theorem exists_getLast?_newline {source : Text} {tokens : List Token}
    (hrun : Yields (Grammar.jsoniq.lex source) tokens last) (hend : Ended last)
    (hnewline : source.getLast? = some '\n') :
    ∃ u, (merge tokens).getLast? = some u ∧
      (isColored u.category = false ↔ last.termination = .complete) := by
  obtain ⟨htiles, htext⟩ := tiles_of_scan hrun hend
  have htokens : tokens ≠ [] := by
    rintro rfl
    rw [← htext] at hnewline
    cases hnewline
  obtain ⟨earlier, t, rfl⟩ := (List.eq_nil_or_concat' tokens).resolve_left htokens
  obtain ⟨k, hk, hlast⟩ := hrun.exists_of_append
  obtain ⟨m, hstep, hm⟩ := yields_cons_iff.1 hlast
  obtain rfl := yields_nil_iff.1 hm
  have hmem : '\n' ∈ t.lexeme := by
    have hne : t.lexeme ≠ [] := (tiles_append_iff.1 htiles).2.1
    rw [← htext, textOf_append, textOf_cons, textOf_nil, List.append_nil,
      List.getLast?_append_of_ne_nil _ hne] at hnewline
    exact List.mem_of_getLast? hnewline
  have hown : ∀ u ∈ [t], u.category = t.category := by simp
  obtain ⟨u, hu, hcategory, -⟩ := exists_getLast?_merge htiles hown
  refine ⟨u, hu, ?_⟩
  constructor
  · intro hcolor
    cases htermination : last.termination with
    | complete => rfl
    | unterminated state openedAt =>
        obtain ⟨before, rest, hinside⟩ := exists_endsInside hrun hend htermination
        obtain ⟨v, hv, hstate, -⟩ := hinside.last
        obtain rfl := Option.some.inj (hu.symm.trans hv)
        have hcolored : ∀ s ∈ State.all, ∀ c ∈ s.category?, isColored c = true := by decide
        rw [hcolored state state.mem_all _ hstate] at hcolor
        cases hcolor
  · intro hcomplete
    obtain ⟨kind, hnests⟩ := exists_nests hk
    rw [hcategory]
    exact hnests.not_isColored_of_newline hstep hmem (termination_eq_complete_iff.1 hcomplete)

end Lexer

namespace Cli

/-! ## The output of the program -/

/-- The text with a line break at its end, which is added if there is none. -/
def lineEnded (text : Text) : Text := if text.getLast? = some '\n' then text else text ++ ['\n']

theorem inColor_eq (tokens : List Token) (palette : Palette) :
    inColor tokens palette = lineEnded (render tokens palette) := rfl

/-- The colored text ends in a line break where the text does and nothing is open at its end. -/
theorem getLast?_render_merge {source : Text} {tokens : List Token} {last : Lexer}
    (hrun : Yields (Grammar.jsoniq.lex source) tokens last) (hend : Ended last) :
    (render (merge tokens) .on).getLast? = some '\n' ↔
      source.getLast? = some '\n' ∧ last.termination = .complete := by
  have htiling := (losslessScan_of_run hrun hend).mergedTiling
  rcases List.eq_nil_or_concat' (merge tokens) with hnil | ⟨front, u, hmerge⟩
  · have hsource : source = [] := by
      rw [← htiling.text, hnil]
      rfl
    rw [hnil, hsource]
    simp [render]
  · have hne : u.lexeme ≠ [] := by
      apply (htiling.nonempty u _).2
      rw [hmerge]
      exact List.mem_append_right _ List.mem_cons_self
    have hlast : source.getLast? = u.lexeme.getLast? := by
      rw [← htiling.text, hmerge, textOf_append, textOf_cons, textOf_nil, List.append_nil,
        List.getLast?_append_of_ne_nil _ hne]
    rw [hmerge, getLast?_render_concat hne, ← hlast]
    apply and_congr_right
    intro hnewline
    obtain ⟨v, hv, hcolor⟩ := Lexer.exists_getLast?_newline hrun hend hnewline
    rw [hmerge, List.getLast?_concat] at hv
    obtain rfl := Option.some.inj hv
    exact hcolor

/-- Without its codes, the output in color is the text with a line break after it, which is not added
if the text has one and nothing is open at its end. -/
theorem withoutCodes_inColor {source : Text} {tokens : List Token} {last : Lexer}
    (hrun : Yields (Grammar.jsoniq.lex source) tokens last) (hend : Ended last)
    (hescape : '\x1b' ∉ source) :
    withoutCodes (inColor (merge tokens) .on) =
      if last.termination = .complete then lineEnded source else source ++ ['\n'] := by
  have htext : textOf (merge tokens) = source := (losslessScan_of_run hrun hend).mergedTiling.text
  have hplain (rest : Text) :
      withoutCodes (render (merge tokens) .on ++ rest) = source ++ withoutCodes rest := by
    rw [← htext] at hescape
    rw [withoutCodes_render hescape, htext]
  have hends := getLast?_render_merge hrun hend
  rw [inColor_eq, lineEnded, lineEnded]
  by_cases hboth : source.getLast? = some '\n' ∧ last.termination = .complete
  · have hall := hplain []
    rw [List.append_nil] at hall
    rw [if_pos (hends.2 hboth), if_pos hboth.1, if_pos hboth.2, hall]
    simp [withoutCodes]
  · have hbreak : withoutCodes ['\n'] = ['\n'] := by
      have hall := @withoutCodes_append ['\n'] (by decide) []
      simpa [withoutCodes] using hall
    rw [if_neg (fun h => hboth (hends.1 h)), hplain, hbreak]
    split
    · next hcomplete => rw [if_neg (fun h => hboth ⟨h, hcomplete⟩)]
    · rfl

/-- The answer to the command is the text in color, whatever is open at the end. -/
theorem exists_respond_highlight {source : Text} {tokens : List Token} {last : Lexer}
    (hrun : Yields (Grammar.jsoniq.lex source) tokens last) (hend : Ended last) (args : SourceArgs)
    (color : ColorChoice) (terminal : Bool) :
    ∃ warning?, (Command.highlight args color).respond terminal source =
      .shown (inColor (merge tokens) (.ofEnabled (color.enabled terminal))) warning? := by
  have hscan : Scan.of source (Command.highlight args color).isRaw =
      .ok ⟨merge tokens, last.termination⟩ := scan_of_run hrun hend false
  obtain ⟨warning?, hwarning⟩ : ∃ warning?, last.termination.warning? source = .ok warning? := by
    cases htermination : last.termination with
    | complete => exact ⟨none, rfl⟩
    | unterminated state openedAt =>
        obtain ⟨before, rest, hinside⟩ := exists_endsInside hrun hend htermination
        obtain ⟨p, -, -, -, hwarning⟩ := hinside.warning
        exact ⟨_, hwarning⟩
  refine ⟨warning?, ?_⟩
  simp [Command.respond, hscan, hwarning, Command.output, bind, Except.bind, pure, Except.pure]

/-- A command line that names a source which can be loaded is answered for this source. -/
theorem run_of_load {host : Host Id} {words : List Text} {command : Command} {args : SourceArgs}
    {source : Text} (hparse : parse words = .ok command) (hargs : command.source? = some args)
    (hload : load host args = Except.ok source) :
    run host words = command.respond host.isTerminal source := by
  simp [run, hparse, hargs, hload, bind, pure]

/-- The command line that shows a text with a choice of colors. -/
def highlightWords (choice : ColorChoice) (text : Text) : List Text :=
  ["highlight".toList, "--color".toList, choice.word.toList, "-s".toList, text]

/-- A text that does not look like an option is shown as the words say. -/
theorem parse_highlightWords (choice : ColorChoice) {text : Text} (h : Word.of text = .plain text) :
    parse (highlightWords choice text) = .ok (.highlight ⟨none, some text⟩ choice) := by
  have hread : Reading.readWords .highlight false .start
      ["--color".toList, choice.word.toList, "-s".toList, text] =
        .ok ⟨[(.color, choice.word.toList), (.source, text)], none⟩ := by
    have hfirst : Reading.readWords .highlight false .start
        ["--color".toList, choice.word.toList, "-s".toList, text] =
          Reading.readWords .highlight false
            ⟨[(.color, choice.word.toList)], some (.source, none)⟩ [text] := by
      cases choice <;> rfl
    rw [hfirst, Reading.readWords, h]
    rfl
  have hparse : parse (highlightWords choice text) =
      CommandName.highlight.parse ["--color".toList, choice.word.toList, "-s".toList, text] := rfl
  rw [hparse, CommandName.parse, hread]
  cases choice <;> rfl

/-- A source without the escape character is shown without colors as it is, with a line break at its
end. Forced colors add codes and nothing else if nothing is open at the end of the source, and else
they add a line break also after one that is there. -/
theorem highlight_changes_colors {host : Host Id} {args : SourceArgs} {source : Text}
    {always never : List Text} (hload : load host args = Except.ok source)
    (hescape : '\x1b' ∉ source) (halways : parse always = .ok (.highlight args .always))
    (hnever : parse never = .ok (.highlight args .never)) :
    ∃ scan, Scan.of source false = .ok scan ∧
      (run host always).exitCode = 0 ∧ (run host never).exitCode = 0 ∧
      (run host never).stdout = lineEnded source ∧
      withoutCodes (run host always).stdout =
        if scan.termination = .complete then (run host never).stdout else source ++ ['\n'] := by
  obtain ⟨tokens, last, hrun, hend, -⟩ := exists_tokenize source
  have htext : textOf (merge tokens) = source := (losslessScan_of_run hrun hend).mergedTiling.text
  obtain ⟨warning?, hcolored⟩ :=
    exists_respond_highlight hrun hend args .always host.isTerminal
  obtain ⟨warning'?, hplain⟩ := exists_respond_highlight hrun hend args .never host.isTerminal
  rw [run_of_load halways rfl hload, run_of_load hnever rfl hload, hcolored, hplain]
  have hoff : inColor (merge tokens) (.ofEnabled (ColorChoice.never.enabled host.isTerminal)) =
      lineEnded source := by
    rw [← htext, ← render_off]
    rfl
  refine ⟨⟨merge tokens, last.termination⟩, scan_of_run hrun hend false, rfl, rfl, hoff, ?_⟩
  rw [hoff]
  exact withoutCodes_inColor hrun hend hescape

/-- Nothing is open after a word and a line break, so the codes around the word are all that colors
add. -/
theorem highlight_changes_colors_word :
    withoutCodes (run (.inMemory (.directory []) .empty)
        (highlightWords .always "true\n".toList)).stdout =
      (run (.inMemory (.directory []) .empty) (highlightWords .never "true\n".toList)).stdout := by
  have hplain : Word.of "true\n".toList = .plain "true\n".toList := by decide
  obtain ⟨scan, hscan, -, -, -, hcolored⟩ :=
    @highlight_changes_colors (.inMemory (.directory []) .empty) _ _ _ _ rfl (by decide)
      (parse_highlightWords .always hplain) (parse_highlightWords .never hplain)
  have hcomplete : (Scan.of "true\n".toList false).map Scan.termination = .ok .complete := by
    rw [Scan.of, jsoniq_eq]
    decide +kernel
  rw [hscan] at hcomplete
  rw [hcolored, if_pos (Except.ok.inj hcomplete)]

/-- After a comment that is left open, a second line break is added to the output in color only. -/
theorem color_adds_line_break :
    '\x1b' ∉ "(:\n".toList ∧
      (run (.inMemory (.directory []) .empty) (highlightWords .never "(:\n".toList)).stdout =
        "(:\n".toList ∧
      withoutCodes (run (.inMemory (.directory []) .empty)
        (highlightWords .always "(:\n".toList)).stdout = "(:\n\n".toList := by
  have hplain : Word.of "(:\n".toList = .plain "(:\n".toList := by decide
  rw [run_of_load (parse_highlightWords .always hplain) rfl rfl,
    run_of_load (parse_highlightWords .never hplain) rfl rfl, Command.respond, Command.respond,
    Scan.of, Scan.of, jsoniq_eq]
  decide +kernel

end Cli

end JsoniqLexer
