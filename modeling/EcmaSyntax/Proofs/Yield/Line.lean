import EcmaSyntax.Proofs.Yield.Build

namespace EcmaSyntax

/-- A token is of a kind and starts at an offset. -/
def Token.Starts (kind : Kind) (start : Nat) (token : Token) : Prop :=
  token.kind = kind ∧ token.start = start

namespace Lexer

/-- The current token is as asked for. -/
def State.At (holds : Token → Prop) (_ : Setting) (state : State) : Prop := holds state.token

/-- The token that has been passed last is as asked for. -/
def State.After (holds : Token → Prop) (_ : Setting) (state : State) : Prop :=
  ∃ last ∈ state.recorded.getLast?, holds last

/-- The token that has been passed last begins at an offset or after it, and what may be parameters
ends with it or before. -/
def State.Heads (start : Nat) (params : List Node) : Setting → State → Prop :=
  State.After fun token => start ≤ token.start ∧ ∀ param ∈ params, param.stop ≤ token.stop

/-- The current token is the word for a function, on the line of the token before it, which starts
at an offset. -/
def State.Declares (start : Nat) (setting : Setting) (state : State) : Prop :=
  state.After (fun token => token.start = start) setting ∧ state.kind = .kwFunction ∧
    state.Joined setting

/-- If a node is the word for an asynchronous function, it is the token that has been passed last,
which starts at an offset, or something else is known. -/
def State.Words (known : Prop) (start : Nat) (node : Node) (setting : Setting) (state : State) :
    Prop :=
  node.isNamed "async" = true → known ∨ state.After (fun token => token.start = start) setting

variable {setting : Setting} {state : State} {holds : Token → Prop}

/-- After a token has been passed, it is the last one. -/
theorem next_after (tracked : state.Tracked setting) (here : state.At holds setting) :
    Gives next setting state fun _ after => after.After holds setting := by
  intro _ after ends
  have recorded : after.recorded = state.tokens :=
    List.append_inj_left' (next_tokens tracked ends).1 rfl
  exact ⟨state.token, by simp [recorded, State.tokens], here⟩

/-- A token that is eaten is of its kind, and the last one. -/
theorem eat_after (kind : Kind) (tracked : state.Tracked setting) :
    Gives (eat kind) setting state fun found after =>
      if found then after.After (fun token => token.kind = kind) setting else after = state := by
  simp only [eat, atKind, Gives.bind_iff, gives_get, gives_pure]
  refine gives_ite (fun found => ?_) fun _ => gives_pure.mpr rfl
  have here : state.At (fun token => token.kind = kind) setting := beq_iff_eq.mp found
  rw [Gives.bind_iff]
  exact (next_after tracked here).mono fun _ _ passed => gives_pure.mpr passed

/-- An arrow that is passed stands on the line of what is before it if it did. -/
theorem eat_pointed {start : Nat} {params : List Node} (tracked : state.Tracked setting)
    (heads : state.Heads start params setting) (joined : state.Joined setting) :
    Gives (eat .arrow) setting state fun found after =>
      found = true → after.Pointed setting start params := by
  simp only [eat, atKind, Gives.bind_iff, gives_get, gives_pure]
  refine gives_ite (fun found => ?_) fun _ => gives_pure.mpr fun absent => by cases absent
  rw [Gives.bind_iff]
  intro _ after ends
  obtain ⟨last, inside, begun, stops⟩ := heads
  obtain ⟨before, recorded⟩ := List.getLast?_eq_some_iff.mp inside
  have passed : after.recorded = state.tokens :=
    List.append_inj_left' (next_tokens tracked ends).1 rfl
  refine gives_pure.mpr fun _ =>
    ⟨before, last, state.token, ?_, beq_iff_eq.mp found, begun, stops, ?_⟩
  · rw [passed, State.tokens, ← State.recorded, recorded, List.append_assoc]
    rfl
  · rw [tracked.last last inside]
    exact joined

/-- What stands before the current token is searched for line terminators. -/
theorem breaksBetween_gives (tracked : state.Tracked setting) :
    Gives (breaksBetween state.lastStop state.start) setting state fun breaks after =>
      after = state ∧ if breaks then setting.source.Breaks state.lastStop state.start
        else state.Joined setting := by
  have sound := tracked.sound
  have searched : Meets (breaksBetween state.lastStop state.start) setting state
      fun breaks after => after = state ∧
        if breaks then setting.source.Breaks state.lastStop state.start else state.Joined setting :=
    meets_breaksBetween.mpr ⟨⟨sound.ordered, sound.previous, sound.boundary⟩, rfl,
      Source.breaks_or_unbroken sound.previous sound.boundary sound.ordered⟩
  exact fun _ _ ends => searched.of_ok ends

end Lexer

namespace Grammar

variable {law : Law} {place : Option (List Enclosure)}
  {here wider there : Lexer.Setting → Lexer.State → Prop} {given : Prop} {α β : Type}
  {setting : Setting} {state : State} {mark : Mark} {form : Form}

section Gives

/-- After a step the tokens are tracked if they were before it. -/
theorem Advances.tracks {action : Parse α} {next : α → Parse β} {post : β → State → Prop}
    (advances : Advances action) (tracked : state.lexer.Tracked setting.toSetting)
    (goesOn : ∀ value after, after.lexer.Tracked setting.toSetting →
      Gives (next value) setting after post) : Gives (action >>= next) setting state post :=
  Gives.bind_iff.mpr fun value after ends =>
    goesOn value after ((advances.traces setting state value after ends).tracked tracked)

/-- The text of a token is cut out of the source. -/
theorem rawText_gives : Gives rawText setting state fun raw after => after = state ∧
    ∃ text, setting.source.slice? state.lexer.start state.lexer.stop = some text ∧
      raw = String.ofList text := by
  simp only [rawText, Gives.bind_iff, gives_get, gives_lex, Lexer.slice, Lexer.gives_source]
  split
  · next text sliced =>
      exact gives_pure.mpr (gives_pure.mpr ⟨rfl, text, sliced, rfl⟩)
  · exact fun _ _ absent => by cases absent

theorem onNewLine_gives (tracked : state.lexer.Tracked setting.toSetting) :
    Gives onNewLine setting state fun breaks after => after = state ∧
      if breaks then setting.source.Breaks state.lexer.lastStop state.lexer.start
        else state.lexer.Joined setting.toSetting := by
  simp only [onNewLine, Gives.bind_iff, gives_get, gives_lex]
  refine (Lexer.breaksBetween_gives tracked).mono ?_
  rintro breaks _ ⟨rfl, known⟩
  exact ⟨rfl, known⟩

/-- A statement may end before the end of a block, or where a new line begins. -/
theorem mayEndStatement_gives (tracked : state.lexer.Tracked setting.toSetting) :
    Gives mayEndStatement setting state fun ends after => after = state ∧
      if ends then state.lexer.Closes setting.toSetting
        else state.lexer.Joined setting.toSetting := by
  rw [mayEndStatement, Gives.bind_iff, gives_kind]
  refine gives_ite (fun closing => gives_pure.mpr ⟨rfl, ?_⟩) fun _ => ?_
  · rw [Bool.or_eq_true, beq_iff_eq, beq_iff_eq] at closing
    exact .inr (closing.symm.imp id .inl)
  · refine (onNewLine_gives tracked).mono ?_
    rintro breaks _ ⟨rfl, known⟩
    refine ⟨rfl, ?_⟩
    cases breaks with
    | true => exact .inr (.inr (.inr known))
    | false => exact known

/-- A token that has to be of a kind is passed. -/
theorem expect_gives {holds : Token → Prop} {kind : Kind}
    (tracked : state.lexer.Tracked setting.toSetting)
    (here : state.lexer.At holds setting.toSetting) :
    Gives (expect kind) setting state fun _ after => after.lexer.After holds setting.toSetting := by
  have passed : Gives (Lexer.eat kind) setting.toSetting state.lexer fun found after =>
      found = true → after.After holds setting.toSetting := by
    simp only [Lexer.eat, Lexer.atKind, Gives.bind_iff, gives_get, gives_pure]
    refine gives_ite (fun _ => ?_) fun _ => gives_pure.mpr fun absent => by cases absent
    rw [Gives.bind_iff]
    exact (Lexer.next_after tracked here).mono fun _ _ after => gives_pure.mpr fun _ => after
  rw [expect, Gives.bind_iff, eat, gives_lex]
  refine passed.mono fun found after known => gives_ite (fun _ => fun _ _ absent => by cases absent)
    fun found => gives_pure.mpr (known (by simpa using found))

/-- A token that is asked for is of its kind. -/
theorem expect_kind {kind : Kind} :
    Gives (expect kind) setting state fun _ _ => state.lexer.kind = kind := by
  have eaten : Gives (Lexer.eat kind) setting.toSetting state.lexer fun found _ =>
      found = true → state.lexer.kind = kind := by
    simp only [Lexer.eat, Lexer.atKind, Gives.bind_iff, gives_get, gives_pure]
    refine gives_ite (fun found => ?_) fun _ => gives_pure.mpr fun absent => by cases absent
    exact Gives.last fun _ _ => gives_pure.mpr fun _ => beq_iff_eq.mp found
  rw [expect, Gives.bind_iff, eat, gives_lex]
  refine eaten.mono fun found after known => gives_ite (fun _ => fun _ _ absent => by cases absent)
    fun found => gives_pure.mpr (known (by simpa using found))

/-- After a token that is asked for, it is the last one. -/
theorem expect_after {kind : Kind} (tracked : state.lexer.Tracked setting.toSetting) :
    Gives (expect kind) setting state fun _ after =>
      after.lexer.After (fun token => token.kind = kind) setting.toSetting := by
  intro _ after ends
  have here : state.lexer.At (fun token => token.kind = kind) setting.toSetting :=
    expect_kind _ after ends
  exact expect_gives tracked here _ after ends

/-- A name ends where its token does, which has been passed after it. -/
theorem identifier_gives {holds : Token → Prop} {liberal : Bool}
    (tracked : state.lexer.Tracked setting.toSetting)
    (here : state.lexer.At holds setting.toSetting) :
    Gives (identifier liberal) setting state fun id after =>
      after.lexer.After (fun token => holds token ∧ id.stop = token.stop) setting.toSetting := by
  have tail : ∀ (mark : Mark) (name : String), Gives (do
      if !liberal && name == "await" && (← get).inAsync then raise mark.pos .awaitInAsync
      next
      finish mark (.identifier name none false)) setting state fun id after =>
        after.lexer.After (fun token => holds token ∧ id.stop = token.stop) setting.toSetting := by
    intro mark name
    rw [Gives.bind_iff, gives_get]
    refine gives_ite (fun _ => Gives.bind_iff.mpr fun _ _ absent => by cases absent) fun _ => ?_
    rw [Gives.bind_iff, Grammar.next, gives_lex]
    intro _ lexer passed id after ends
    obtain ⟨last, inside, known⟩ := Lexer.next_after tracked here _ lexer passed
    have still : lexer.Tracked setting.toSetting :=
      (Lexer.next_traces _ lexer passed).tracked tracked
    obtain ⟨-, -, stop⟩ := finish_gives id after ends
    obtain ⟨_, _, _, _, _, rfl⟩ := finish_aside id after ends
    exact ⟨last, inside, known, stop.trans (still.last last inside).symm⟩
  rw [identifier, Gives.bind_iff, gives_mark, Gives.bind_iff, gives_kind, Gives.bind_iff,
    gives_valueText]
  refine gives_ite (fun _ => gives_look fun _ => gives_ite (fun _ => ?_) fun _ => ?_) fun _ => ?_
  · exact Gives.bind_iff.mpr fun _ _ absent => by cases absent
  · exact Gives.bind_iff.mpr (gives_pure.mpr (tail _ _))
  · split
    · refine gives_ite (fun _ => Gives.bind_iff.mpr (gives_pure.mpr (tail _ _))) fun _ => ?_
      exact Gives.bind_iff.mpr fun _ _ absent => by cases absent
    · exact Gives.bind_iff.mpr fun _ _ absent => by cases absent

/-- A statement ends where it closes, or goes on with the tokens that are joined to it. -/
theorem endsStatement_gives (tracked : state.lexer.Tracked setting.toSetting) :
    Gives endsStatement setting state fun ends after =>
      if ends then after.lexer.Closes setting.toSetting
        else after = state ∧ state.lexer.Joined setting.toSetting := by
  rw [endsStatement, Gives.bind_iff, eat, gives_lex]
  refine (Lexer.eat_after .semi tracked).mono fun found after passed => ?_
  cases found with
  | true => exact gives_pure.mpr (.inl passed)
  | false =>
      cases passed
      refine (mayEndStatement_gives tracked).mono ?_
      rintro ends _ ⟨rfl, known⟩
      cases ends with
      | true => exact known
      | false => exact ⟨rfl, known⟩

end Gives

/-- A step yields good values where something is known of the tokens that have been read. -/
structure YieldsFrom (law : Law) (place : Option (List Enclosure))
    (here : Lexer.Setting → Lexer.State → Prop) (given : Prop) (action : Parse α)
    (good : α → Prop) : Prop where
  steps : Steps action
  good : ∀ setting (state : State), state.Under law setting → here setting.toSetting state.lexer →
    Gives action setting state fun value after =>
      law.within after.lexer → Stands place state → Waiting law state → given →
        good value ∧ Waiting law after ∧ after.labels = state.labels

/-- What is yielded where nothing is known is yielded anywhere. -/
theorem YieldsAt.ofFrom {action : Parse α} {good : α → Prop}
    (yields : YieldsFrom law place (fun _ _ => True) given action good) :
    YieldsAt law place given action good :=
  ⟨yields.steps, fun setting state under => yields.good setting state under trivial⟩

namespace YieldsFrom

variable {action peek : Parse α} {next : α → Parse β} {rest : PUnit → Parse β}
  {ends : Bool → Parse β} {good better : α → Prop} {final : β → Prop}

/-- What is yielded wherever it begins is yielded from here. -/
theorem ofYields (yields : YieldsAt law place given action good) :
    YieldsFrom law place here given action good :=
  ⟨yields.steps, fun setting state under _ => yields.good setting state under⟩

/-- How a step reads does not depend on what is given. -/
theorem advances (yields : YieldsFrom law place here False action good) : Advances action :=
  yields.steps.toAdvances

theorem mono (yields : YieldsFrom law place wider given action good)
    (implies : ∀ setting lexer, here setting lexer → wider setting lexer) :
    YieldsFrom law place here given action good :=
  ⟨yields.steps, fun setting state under known =>
    yields.good setting state under (implies _ _ known)⟩

/-- Nothing more than what a step asks for is of use to it. -/
theorem ofGiven {stronger : Prop} (yields : YieldsFrom law place here given action good)
    (implied : stronger → given) : YieldsFrom law place here stronger action good where
  steps := yields.steps
  good setting state under known value after ends within stands waiting holds :=
    yields.good setting state under known value after ends within stands waiting (implied holds)

/-- What is given also helps to tell what is yielded from here. -/
theorem refine (yields : YieldsFrom law place here given action good)
    (implies : ∀ value, given → good value → better value) :
    YieldsFrom law place here given action better where
  steps := yields.steps
  good setting state under known value after ends within stands waiting holds :=
    (yields.good setting state under known value after ends within stands waiting holds).imp_left
      (implies value holds)

/-- A value that is known goes on as it is. -/
theorem value {value : α} (goesOn : YieldsFrom law place here given (next value) final) :
    YieldsFrom law place here given (pure value >>= next) final := by
  rwa [pure_bind]

theorem ite {condition : Prop} [Decidable condition] {first second : Parse α}
    (holds : condition → YieldsFrom law place here given first good)
    (fails : ¬condition → YieldsFrom law place here given second good) :
    YieldsFrom law place here given (if condition then first else second) good := by
  split
  · exact holds ‹_›
  · exact fails ‹_›

/-- After a step something else is known of the tokens that have been read, and what it yields is
given to the next one. -/
theorem bind (there : α → Lexer.Setting → Lexer.State → Prop)
    (passes : ∀ setting (state : State), state.lexer.Tracked setting.toSetting →
      here setting.toSetting state.lexer →
        Gives peek setting state fun value after => there value setting.toSetting after.lexer)
    (begins : YieldsFrom law place here given peek good)
    (goesOn : ∀ value,
      YieldsFrom law place (there value) (given ∧ good value) (next value) final) :
    YieldsFrom law place here given (peek >>= next) final where
  steps := begins.steps.bind fun value => (goesOn value).steps
  good setting state under known := by
    rw [Gives.bind_iff]
    intro value middle begun last after ends within stands waiting holds
    have later := (goesOn value).steps.traces setting middle last after ends
    have still := begins.steps.under under value middle begun
    have grown := begins.steps.extends_ setting state
    rw [begun] at grown
    have met := passes setting state under.tracked known value middle begun
    obtain ⟨good, ordered, labels⟩ := begins.good setting state under known value middle begun
      (law.earlier later still.tracked within) stands waiting holds
    obtain ⟨better, kept, same⟩ := (goesOn value).good setting middle still met last after ends
      within (stands.later grown labels) ordered ⟨holds, good⟩
    exact ⟨better, kept, same.trans labels⟩

/-- What follows does not depend on the tokens that have been read. -/
theorem andThen (begins : YieldsFrom law place here given peek good)
    (goesOn : ∀ value, YieldsAt law place (given ∧ good value) (next value) final) :
    YieldsFrom law place here given (peek >>= next) final :=
  .bind (fun _ _ _ => True) (fun _ _ _ _ _ _ _ => trivial) begins fun value =>
    .ofYields (goesOn value)

/-- What is known of the tokens stays known in the meantime. -/
theorem meanwhile (kept : ∀ setting first last, first.Tracked setting →
      first.Traces setting last → here setting first → here setting last)
    (begins : YieldsFrom law place here given peek good)
    (goesOn : ∀ value, YieldsFrom law place here (given ∧ good value) (next value) final) :
    YieldsFrom law place here given (peek >>= next) final :=
  .bind (fun _ => here) (fun setting state tracked known value after ends =>
    kept _ _ _ tracked (begins.steps.traces setting state value after ends) known) begins goesOn

/-- What is known of a value for another reason is known, too. -/
theorem knowing {fact : α → Prop}
    (gives : ∀ setting (state : State), state.lexer.Tracked setting.toSetting →
      here setting.toSetting state.lexer → Gives action setting state fun value _ => fact value)
    (yields : YieldsFrom law place here given action good) :
    YieldsFrom law place here given action fun value => good value ∧ fact value where
  steps := yields.steps
  good setting state under known value after ends within stands waiting holds :=
    (yields.good setting state under known value after ends within stands waiting holds).imp_left
      fun good => ⟨good, gives setting state under.tracked known value after ends⟩

/-- After a plain step only the tokens matter. -/
theorem plain [plain : Plain peek] (there : α → Lexer.Setting → Lexer.State → Prop)
    (passes : ∀ setting (state : State), state.lexer.Tracked setting.toSetting →
      here setting.toSetting state.lexer →
        Gives peek setting state fun value after => there value setting.toSetting after.lexer)
    (goesOn : ∀ value, YieldsFrom law place (there value) given (next value) final) :
    YieldsFrom law place here given (peek >>= next) final :=
  .bind there passes (.ofYields .plain) fun value => (goesOn value).ofGiven And.left

/-- A step that leaves everything as it is comes first. -/
theorem still (same : ∀ setting state, Gives peek setting state fun _ after => after = state)
    (begins : YieldsAt law place given peek good)
    (goesOn : ∀ value, YieldsFrom law place here (given ∧ good value) (next value) final) :
    YieldsFrom law place here given (peek >>= next) final := by
  refine .bind (fun _ => here) (fun setting state _ known => ?_) (.ofYields begins) goesOn
  refine (same setting state).mono ?_
  rintro _ _ rfl
  exact known

/-- A step that only looks comes first. -/
theorem look [Looks peek] [Plain peek]
    (goesOn : ∀ value, YieldsFrom law place here given (next value) final) :
    YieldsFrom law place here given (peek >>= next) final :=
  .still Looks.still .plain fun value => (goesOn value).ofGiven And.left

/-- What follows depends on the start of the current token. -/
theorem onMark {next : Mark → Parse β} (goesOn : ∀ mark, YieldsFrom law place
      (fun setting lexer => here setting lexer ∧ lexer.start = mark.pos) given (next mark) final) :
    YieldsFrom law place here given (Grammar.mark >>= next) final :=
  .plain (fun mark setting lexer => here setting lexer ∧ lexer.start = mark.pos)
    (fun _ _ _ known => gives_mark.mpr ⟨known, rfl⟩) goesOn

/-- What follows depends on the kind of the current token. -/
theorem onKind {next : Kind → Parse β} (goesOn : ∀ kind, YieldsFrom law place
      (fun setting lexer => here setting lexer ∧ lexer.kind = kind) given (next kind) final) :
    YieldsFrom law place here given (Grammar.kind >>= next) final :=
  .plain (fun kind setting lexer => here setting lexer ∧ lexer.kind = kind)
    (fun _ _ _ known => gives_kind.mpr ⟨known, rfl⟩) goesOn

/-- What follows depends on whether the current token is of a kind. -/
theorem onAtKind {expected : Kind} {next : Bool → Parse β} (goesOn : ∀ found, YieldsFrom law place
      (fun setting lexer => here setting lexer ∧ (found = true → lexer.kind = expected)) given
        (next found) final) :
    YieldsFrom law place here given (Grammar.atKind expected >>= next) final :=
  .plain (fun found setting lexer => here setting lexer ∧ (found = true → lexer.kind = expected))
    (fun _ _ _ known => gives_atKind.mpr ⟨known, beq_iff_eq.mp⟩) goesOn

/-- What follows depends on whether types belong to the language. -/
theorem onTypes {next : Bool → Parse β} (goesOn : ∀ types, YieldsFrom law place
      (fun setting lexer => here setting lexer ∧ setting.flow = types) given (next types) final) :
    YieldsFrom law place here given (Grammar.hasTypes >>= next) final := by
  refine .plain (fun types setting lexer => here setting lexer ∧ setting.flow = types)
    (fun setting state _ known => ?_) goesOn
  rw [hasTypes, Gives.bind_iff, gives_read, gives_pure]
  exact ⟨known, rfl⟩

/-- What is known of the tokens that have been read is given to what follows, as long as they are
those that the law speaks of. -/
theorem learn {fact : Prop} (known : ∀ setting lexer, law.layout.Knows setting lexer →
      here setting lexer → fact)
    (goesOn : YieldsFrom law place here (given ∧ fact) action good) :
    YieldsFrom law place here given action good where
  steps := goesOn.steps
  good setting state under met value after ends within stands waiting holds := by
    have traces := goesOn.steps.traces setting state value after ends
    have knows := law.knows under.speaks under.tracked (law.earlier traces under.tracked within)
    exact goesOn.good setting state under met value after ends within stands waiting
      ⟨holds, known _ _ knows met⟩

/-- Something of the state where a step begins is given a name. -/
theorem named {ι : Type} [Inhabited ι] (observe : Lexer.Setting → Lexer.State → ι)
    (goesOn : ∀ observed, YieldsFrom law place (fun setting lexer => here setting lexer ∧
      observe setting lexer = observed) given action good) :
    YieldsFrom law place here given action good :=
  ⟨(goesOn default).steps, fun setting state under known =>
    (goesOn _).good setting state under ⟨known, rfl⟩⟩

/-- A loop yields what its last turn yields, given that each turn keeps to an invariant of what has
been gathered, and that one is known of the tokens where a turn begins. -/
theorem loop (invariant : α → Prop) (there : α → Lexer.Setting → Lexer.State → Prop) {start : α}
    {turn : α → Parse (Turn α β)} (begins : given → invariant start)
    (passes : ∀ gathered setting (state : State), state.lexer.Tracked setting.toSetting →
      there gathered setting.toSetting state.lexer → Gives (turn gathered) setting state
        fun turned after => ∀ next, turned = .more next → there next setting.toSetting after.lexer)
    (turns : ∀ gathered, YieldsFrom law place (there gathered) (given ∧ invariant gathered)
      (turn gathered) (Turned invariant final)) :
    YieldsFrom law place (there start) given (Grammar.loop start turn) final := by
  refine .look fun _ => .ofGiven (loopWithin_induction (fun gathered action =>
    YieldsFrom law place (there gathered) (given ∧ invariant gathered) action final)
    (fun _ => .ofYields .tooDeep) (fun gathered rest goesOn => .bind (fun turned setting lexer =>
      ∀ next, turned = .more next → there next setting lexer) (passes gathered) (turns gathered)
        fun turned => ?_) _ start) fun known => ⟨known, begins known⟩
  cases turned with
  | more next => exact ((goesOn next).mono fun _ _ known => known next rfl).ofGiven fun known =>
      ⟨known.1.1, known.2⟩
  | done result => exact .ofYields (.pure And.right)

/-- The current token is passed. -/
theorem pass {holds : Token → Prop}
    (goesOn : YieldsFrom law place (Lexer.State.After holds) given (rest ⟨⟩) final) :
    YieldsFrom law place (Lexer.State.At holds) given (Grammar.next >>= rest) final := by
  refine .plain (fun _ => Lexer.State.After holds) (fun setting state tracked known => ?_)
    fun _ => goesOn
  rw [Grammar.next, gives_lex]
  exact Lexer.next_after tracked known

/-- A token that is asked for is there. -/
theorem awaited {kind : Kind} (goesOn : YieldsFrom law place (fun setting lexer =>
      here setting lexer ∧ lexer.kind = kind) given (expect kind >>= rest) final) :
    YieldsFrom law place here given (expect kind >>= rest) final where
  steps := goesOn.steps
  good setting state under met := by
    rw [Gives.bind_iff]
    intro _ middle passed
    have found := expect_kind _ middle passed
    exact Gives.bind_iff.mp (goesOn.good setting state under ⟨met, found⟩) _ middle passed

/-- The word is passed that a statement or an expression begins with. -/
theorem passWord {kind : Kind} {start : Nat}
    (goesOn : YieldsFrom law place (Lexer.State.After (Token.Starts kind start)) given
      (rest ⟨⟩) final) :
    YieldsFrom law place (fun _ lexer => lexer.kind = kind ∧ lexer.start = start) given
      (Grammar.next >>= rest) final :=
  .pass goesOn

/-- A statement ends here, or what follows is on the line of what has been passed. -/
theorem mayEnd
    (closes : YieldsFrom law place (fun setting lexer => here setting lexer ∧
      lexer.Closes setting) given (ends true) final)
    (joined : YieldsFrom law place (fun setting lexer => here setting lexer ∧
      lexer.Joined setting) given (ends false) final) :
    YieldsFrom law place here given (mayEndStatement >>= ends) final := by
  refine .plain (fun may setting lexer => here setting lexer ∧
    if may then lexer.Closes setting else lexer.Joined setting)
    (fun setting state tracked known => (mayEndStatement_gives tracked).mono ?_) fun may => ?_
  · rintro may _ ⟨rfl, met⟩
    exact ⟨known, met⟩
  · cases may with
    | true => exact closes
    | false => exact joined

/-- A statement ends here, maybe with a semicolon, or what follows is on the line of what has been
passed. -/
theorem maybeEnd (closes : YieldsFrom law place (fun setting lexer => lexer.Closes setting) given
      (ends true) final)
    (joined : YieldsFrom law place (fun setting lexer => here setting lexer ∧
      lexer.Joined setting) given (ends false) final) :
    YieldsFrom law place here given (endsStatement >>= ends) final := by
  refine .plain (fun ended setting lexer => if ended then lexer.Closes setting else
      here setting lexer ∧ lexer.Joined setting)
    (fun setting state tracked known => (endsStatement_gives tracked).mono ?_) fun ended => ?_
  · intro ended after met
    cases ended with
    | true => exact met
    | false =>
        obtain ⟨rfl, joined⟩ := met
        exact ⟨known, joined⟩
  · cases ended with
    | true => exact closes
    | false => exact joined

/-- What follows is on the line of what has been passed or not. -/
theorem sameLine (breaks : YieldsFrom law place here given (ends true) final)
    (joined : YieldsFrom law place (fun setting lexer => here setting lexer ∧
      lexer.Joined setting) given (ends false) final) :
    YieldsFrom law place here given (onNewLine >>= ends) final := by
  refine .plain (fun breaks setting lexer => here setting lexer ∧
      (breaks = false → lexer.Joined setting))
    (fun setting state tracked known => (onNewLine_gives tracked).mono ?_) fun found => ?_
  · rintro found _ ⟨rfl, met⟩
    exact ⟨known, by rintro rfl; exact met⟩
  · cases found with
    | true => exact breaks.mono fun _ _ => And.left
    | false => exact joined.mono fun _ _ known => ⟨known.1, known.2 rfl⟩

/-- A statement has to end here. -/
theorem ended (goesOn : YieldsFrom law place (fun setting lexer => lexer.Closes setting) given
      (rest ⟨⟩) final) :
    YieldsFrom law place here given (endStatement >>= rest) final := by
  rw [endStatement, bind_assoc]
  exact .maybeEnd goesOn (.ofYields .fail)

/-- A word is followed on its line. -/
theorem led {kind : Kind} {start : Nat}
    (goesOn : YieldsAt law place (given ∧ law.layout.leads kind start) action good) :
    YieldsFrom law place (fun setting lexer => lexer.After (Token.Starts kind start) setting ∧
      lexer.Joined setting) given action good := by
  refine .learn ?_ (.ofYields goesOn)
  rintro setting lexer knows ⟨⟨word, last, rfl, rfl⟩, joined⟩
  exact knows.leads joined word last

/-- The word for a function stands on the line of the word before it. -/
theorem joined {start : Nat}
    (goesOn : YieldsAt law place (given ∧ law.layout.joins start) action good) :
    YieldsFrom law place (Lexer.State.Declares start) given action good := by
  refine .learn ?_ (.ofYields goesOn)
  rintro setting lexer knows ⟨⟨word, last, rfl⟩, kind, joined⟩
  exact knows.joins joined kind word last

/-- The word for an asynchronous arrow function is followed by a name, or by a parenthesis on its
line. -/
theorem called {start : Nat}
    (goesOn : YieldsAt law place (given ∧ law.layout.calls start) action good) :
    YieldsFrom law place (fun setting lexer => lexer.After (fun token => token.start = start)
      setting ∧ (lexer.kind = .name ∨ lexer.kind = .parenL ∧ lexer.Joined setting)) given action
        good := by
  refine .learn ?_ (.ofYields goesOn)
  rintro setting lexer knows ⟨⟨word, last, rfl⟩, follows⟩
  exact knows.calls follows word last

/-- In a language with types an arrow may stand anywhere. -/
theorem typed (goesOn : YieldsFrom law place here
      (given ∧ ∀ start function, law.layout.points start function) action good) :
    YieldsFrom law place (fun setting lexer => here setting lexer ∧ setting.flow = true) given
      action good :=
  .learn (fun _ _ knows known => knows.typed known.2) (goesOn.mono fun _ _ => And.left)

/-- An arrow is passed that stands on the line of what may be its parameters, or none is. -/
theorem pointed {start : Nat} {params : List Node} {maybeArrow : Bool}
    (found : YieldsFrom law place (fun setting lexer => lexer.Pointed setting start params) given
      (ends true) final)
    (other : YieldsAt law place given (ends false) final) :
    YieldsFrom law place (Lexer.State.Heads start params) given (mayEndStatement >>= fun stops =>
      if (maybeArrow && !stops) = true then Grammar.eat .arrow >>= ends
        else Pure.pure false >>= ends) final := by
  refine .mayEnd ?_ (.ite (fun _ => ?_) fun _ => .ofYields (.value other))
  · rw [Bool.not_true, Bool.and_false, if_neg Bool.false_ne_true]
    exact .ofYields (.value other)
  · refine .plain (fun passed setting lexer => passed = true → lexer.Pointed setting start params)
      (fun setting state tracked known => ?_) fun passed => ?_
    · rw [Grammar.eat, gives_lex]
      exact Lexer.eat_pointed tracked known.1 known.2
    · cases passed with
      | true => exact found.mono fun _ _ pointed => pointed rfl
      | false => exact .ofYields other

/-- An operator that is a step stands on the line of its operand. -/
theorem trailed (goesOn : ∀ stop, YieldsFrom law place
      (Lexer.State.At fun token => token.stop = stop) (given ∧ law.layout.trails stop) action
        good) :
    YieldsFrom law place (fun setting lexer => lexer.kind = .incDec ∧ lexer.Joined setting) given
      action good := by
  refine .named (fun _ lexer => lexer.stop) fun stop => .learn ?_ ((goesOn stop).mono fun _ _ =>
    And.right)
  rintro setting lexer knows ⟨⟨kind, joined⟩, rfl⟩
  exact knows.trails joined kind

/-- A node is finished that ends where the last token does that has been passed. -/
theorem finish (holds : Nat → Prop)
    (known : ∀ setting lexer, law.layout.Knows setting lexer → lexer.Tracked setting →
      here setting lexer → holds lexer.lastStop) :
    YieldsFrom law place here given (finish mark form) fun node =>
      (node.form = form ∧ node.start = mark.pos) ∧ holds node.stop where
  steps := .plain
  good setting state under met node after ends within stands waiting _ := by
    have plain : Plain (Grammar.finish mark form) := inferInstance
    have traces := plain.traces setting state node after ends
    have knows := law.knows under.speaks under.tracked (law.earlier traces under.tracked within)
    obtain ⟨form, start, stop⟩ := finish_gives node after ends
    refine ⟨⟨⟨form, start⟩, stop ▸ known _ _ knows under.tracked met⟩, ?_, ?_⟩
    · rwa [Waiting, plain.decorators setting state node after ends]
    · exact plain.labels setting state node after ends

/-- A node is finished with which a statement may end. -/
theorem finishEnd :
    YieldsFrom law place (fun setting lexer => lexer.Closes setting) given
      (Grammar.finish mark form) fun node =>
        (node.form = form ∧ node.start = mark.pos) ∧ law.layout.ends node.stop :=
  .finish law.layout.ends fun _ _ knows _ closes => knows.ends closes

/-- A node is finished that ends with a token which has been passed. -/
theorem finishStop {stop : Nat} :
    YieldsFrom law place (Lexer.State.After fun token => token.stop = stop) given
      (Grammar.finish mark form) fun node =>
        (node.form = form ∧ node.start = mark.pos) ∧ node.stop = stop :=
  .finish (· = stop) fun _ _ _ tracked ⟨last, inside, same⟩ =>
    (tracked.last last inside).symm.trans same

/-- A statement is lawful that ends as it has to. -/
theorem finishLawful (uniform : form.isUniform = true) (free : form.isFree = true)
    (still : form.isPostfix = false) (unspelled : form.isSpelled = false)
    (leads : given → ∀ word ∈ form.word?, law.layout.leads word mark.pos)
    (all : given → form.Lawful law) :
    YieldsFrom law place (fun setting lexer => lexer.Closes setting) given
      (Grammar.finish mark form) (Node.Lawful law) := by
  refine finishEnd.refine fun node known ⟨⟨same, start⟩, ends⟩ => ?_
  exact .ofUniform (same ▸ uniform) (same ▸ Form.permitted_of_isFree free)
    ⟨.ofEnds (same ▸ still) ends (same ▸ start ▸ leads known),
      same ▸ Form.linked_of_isFree free, .ofUnspelled (same ▸ unspelled)⟩ (same ▸ all known)

/-- No word stands before a statement that has to be on its line. -/
theorem finishPlain (uniform : form.isUniform = true) (free : form.isFree = true)
    (still : form.isPostfix = false) (unspelled : form.isSpelled = false)
    (plain : form.word? = none)
    (all : given → form.Lawful law) :
    YieldsFrom law place (fun setting lexer => lexer.Closes setting) given
      (Grammar.finish mark form) (Node.Lawful law) :=
  .finishLawful uniform free still unspelled (fun _ => by simp [plain]) all

/-- The token after an offset stays after it. -/
theorem onward {start : Nat} (begins : YieldsFrom law place (fun _ lexer => start ≤ lexer.start)
      given peek good)
    (goesOn : ∀ value, YieldsFrom law place (fun _ lexer => start ≤ lexer.start)
      (given ∧ good value) (next value) final) :
    YieldsFrom law place (fun _ lexer => start ≤ lexer.start) given (peek >>= next) final :=
  .meanwhile (fun _ _ _ tracked traces begun => Nat.le_trans begun (traces.onward tracked).1) begins
    goesOn

/-- It does so on both sides of a choice after which the parse goes on alike. -/
theorem onwardEither {start : Nat} {condition : Prop} [Decidable condition] {other : Parse α}
    [Plain peek] [Plain other] (goesOn : ∀ value,
      YieldsFrom law place (fun _ lexer => start ≤ lexer.start) given (next value) final) :
    YieldsFrom law place (fun _ lexer => start ≤ lexer.start) given
      (if condition then peek >>= next else other >>= next) final :=
  .ite (fun _ => .onward (.ofYields .plain) fun value => (goesOn value).ofGiven And.left)
    fun _ => .onward (.ofYields .plain) fun value => (goesOn value).ofGiven And.left

end YieldsFrom

end Grammar

end EcmaSyntax
