import EcmaSyntax.Proofs.Grammar.Program
import EcmaSyntax.Proofs.Yield.Circle

namespace EcmaSyntax

/-- A text that begins in a mode has been read to its end with the tokens of a file, and the tree of
the file is as each law asks that the rules of the grammar keep and that speaks of these tokens. -/
structure File.Read (file : File) (setting : Lexer.Setting) (mode : Mode) (ended : Lexer.State) :
    Prop where
  tokens : file.tokens = ended.recorded
  atEnd : ended.kind = .eof
  tracked : ended.Tracked setting
  ascending : Ascending ended.tokens
  follows : ∀ law : Law, (∀ count, (Grammar.rulesWithin count).Lawful law) → law.speaks setting →
    law.within ended → file.program.Follows (law.under mode) []

namespace Grammar

open Lexer (Frame)

variable {setting : Setting} {state : State}

/-- The body of a program is parsed to its end. -/
theorem body_read {count : Nat} {parts : List Node × List Node} {mark : Mark}
    {sourceType : SourceType} {node : Node} {ended last : State} {mode : Mode}
    (held : Held setting (setting.over .top) state)
    (tracked : state.lexer.Tracked setting.toSetting) (begins : state.mode setting.flow = mode)
    (undecorated : state.decorators = []) (unlabeled : state.labels = [])
    (parsed : blockParts (rulesWithin count) true true .eof setting state = .ok parts ended)
    (finished : finish mark (.program sourceType parts.1 parts.2) setting ended = .ok node last) :
    Ended setting last ∧ ∀ law : Law, (rulesWithin count).Lawful law →
      law.speaks setting.toSetting → law.within last.lexer →
        node.Follows (law.under mode) [] := by
  have ending := (blockParts_meets (rulesWithin_sound _) Frame.calm_top next_ended
    (fun _ _ => Ended.loosened) held).of_ok parsed
  refine ⟨ending.moved ((finish_moved ending.filled).of_ok finished),
    fun law lawful speaks within => ?_⟩
  have yields : YieldsIn (law.under mode) [] True
      (blockParts (rulesWithin count) true true .eof >>=
        fun parts => finish mark (.program sourceType parts.1 parts.2))
      (Node.Enclosed (law.under mode)) :=
    (blockParts_yields (lawful.under mode)).bind fun _ =>
      .ofAnywhere (finish_made.refine fun _ known made =>
        .ofProgram made.1 (fun node inside => known.2.1 node inside []) known.2.2)
  have waiting : Waiting (law.under mode) state := by
    rw [Waiting, undecorated]
    exact .nil
  exact (Gives.bind_iff.mp (yields.good setting state ⟨speaks, tracked, begins⟩) _ _ parsed _ _
    finished within (Settled.unlabeled unlabeled).stands waiting trivial).1

/-- A program that is read follows the law in all its parts, up to the end of the text. -/
theorem program_read (setting : Setting) :
    Gives (do lex Lexer.skipShebang; program : Parse File) setting
      (.initial setting.options.startsStrict) fun file _ =>
        ∃ ended, file.Read setting.toSetting
          ⟨setting.options.startsStrict, false, setting.flow⟩ ended := by
  simp only [program, programNode, closeFile, freshId, Gives.bind_iff, gives_mark, gives_read,
    gives_get, gives_set, gives_modify, gives_pure, gives_lex, Lexer.takeRecord]
  intro _ middle passed _ first read parts ended parsed node last finished _ _ _
  have skips := (Lexer.skipShebang_meets (.initial _)).of_ok passed
  have held := (nextToken_held skips passed).of_ok (by rw [lex, read])
  have begun := (Lexer.begin_tokens _ _ _ (Lexer.begins passed read)).2
  have strict := congrArg Lexer.Manner.strict (Lexer.begin_manner (Lexer.begins passed read))
  obtain ⟨⟨_, -, -, atEnd, -, -, -, tracked, ascending⟩, follows⟩ :=
    body_read held begun (congrArg (Mode.mk · false _) strict) rfl rfl parsed finished
  exact ⟨last.lexer, List.filterMap_reverse, atEnd, tracked, ascending,
    fun law lawful => follows law (lawful _)⟩

end Grammar

/-- Every text that is parsed has been read to its end. -/
theorem parse_read {text : String} {options : Options} {file : File}
    (parsed : parse text options = .ok file) :
    ∃ ended, file.Read (options.setting text) options.mode ended := by
  have read := Grammar.program_read (.ofText (LineEnding.normalize text).toList options)
  obtain ⟨last, same, -⟩ := parse_eq_ok.mp parsed
  exact read file last same

end EcmaSyntax
