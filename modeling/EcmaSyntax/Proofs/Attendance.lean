/-
This file says that comments can be given to every node that a parse finishes, wherever it has come,
and that the nodes and the comments are in order each time this has been done.
-/

import EcmaSyntax.Proofs.Place.Program

namespace EcmaSyntax

/-- The comments of a node stand in lists that hold something, in the order of the text. -/
structure Attached.Tidy (attached : Attached) : Prop where
  leading : ∀ items ∈ attached.leading, items ≠ [] ∧ InOrder items
  trailing : ∀ items ∈ attached.trailing, items ≠ [] ∧ InOrder items
  inner : ∀ items ∈ attached.inner, items ≠ [] ∧ InOrder items

/-- Comments that are taken from those of the text, in their order, are in order. -/
theorem Attached.Among.tidy {comments : List Comment} {attached : Attached}
    (among : attached.Among comments) (ordered : InOrder comments) : attached.Tidy where
  leading items inside :=
    ⟨(among.leading items inside).1, ordered.sublist (among.leading items inside).2⟩
  trailing items inside :=
    ⟨(among.trailing items inside).1, ordered.sublist (among.trailing items inside).2⟩
  inner items inside := ⟨(among.inner items inside).1, ordered.sublist (among.inner items inside).2⟩

namespace Lexer.State.ReadsOn

variable {setting : Lexer.Setting} {first last : Lexer.State}

/-- What has been recorded stays when a parse reads on. -/
theorem extends_ (reads : first.ReadsOn setting last) : first.Extends last := by
  cases reads with
  | stay => exact .refl first
  | next read =>
      have grown : first.Extends (lastState (Lexer.next setting first)) :=
        Lexer.next_maintains Extends.closed Extends.pass setting first (.refl first)
      rwa [read] at grown
  | lookahead read =>
      have grown := Lexer.lookahead_extends setting first
      rwa [read] at grown
  | @setStrict strict _ read =>
      have grown := Lexer.setStrict_extends strict setting first
      rwa [read] at grown

/-- A parse that reads on stays between seams of the text. -/
theorem sited (reads : first.ReadsOn setting last) (sited : first.Sited setting) :
    last.Sited setting := by
  cases reads with
  | stay => exact sited
  | next read => exact sited.next _ _ read
  | lookahead read => exact sited.lookahead _ _ read ▸ sited
  | setStrict read => exact sited.setStrict _ _ _ read

end Lexer.State.ReadsOn

/-- The record has been handed over. -/
def Lexer.State.Handed (first last : Lexer.State) : Prop :=
  last = { first with entries := [], comments := [] }

namespace Grammar

namespace State

variable {setting : Setting} {comments more : List Comment} {state after : State}
  {id : NodeId} {start stop : Nat}

/-- The nodes that comments may still be taken from start after one another, the newest of them
last, the comments that may still be given to nodes are in the order of the text, and so are those
that belong to a node. -/
structure Tidy (state : State) : Prop where
  stacked : state.finished.Pairwise fun newer older => older.start < newer.start
  leading : InOrder state.lexer.leading
  trailing : InOrder state.lexer.trailing
  attached : ∀ (id : NodeId) (attached : Attached), state.attached? id = some attached → attached.Tidy

section Finished

/-- Taking the comments after a node leaves the finished nodes as they are. -/
theorem takeTrailing_finished {found : Option (List Comment)}
    (took : state.takeTrailing stop = .ok (found, after)) : after.finished = state.finished := by
  unfold takeTrailing at took
  repeat' split at took
  all_goals cases took
  all_goals rfl

/-- Taking comments from a part of a node leaves the finished nodes as they are. -/
theorem takeFromPart_finished {part : Finished} {found : Option (List Comment)}
    (took : state.takeFromPart id start part = .ok (found, after)) :
    after.finished = state.finished := by
  simp only [takeFromPart, splitWithin, bind, Except.bind, pure, Except.pure] at took
  repeat' split at took
  all_goals cases took
  all_goals rfl

/-- Taking the comments that have just been read leaves the finished nodes as they are. -/
theorem takeRead_finished {before within : Option (List Comment)}
    (took : state.takeRead start = .ok (before, within, after)) :
    after.finished = state.finished := by
  simp only [takeRead, splitWithin, bind, Except.bind, pure, Except.pure] at took
  repeat' split at took
  all_goals cases took
  all_goals rfl

/-- Giving comments to a node leaves the finished nodes as they are. -/
theorem giveComments_finished {leading trailing : Option (List Comment)}
    (gave : state.giveComments id start stop leading trailing = .ok after) :
    after.finished = state.finished := by
  unfold giveComments at gave
  simp only at gave
  repeat' split at gave
  all_goals cases gave
  all_goals rfl

/-- A node that is finished takes the place of those that do not start before it. -/
theorem attach_finished (attached : state.attach id start stop = .ok after) :
    after.finished =
      ⟨id, start, stop⟩ :: state.finished.dropWhile fun node => decide (start ≤ node.start) := by
  simp only [attach, bind, Except.bind, pure, Except.pure] at attached
  split at attached
  · cases attached
  · next trailing took =>
      have kept := takeTrailing_finished took
      split at attached
      · split at attached
        · cases attached
        · next part given =>
            rw [giveComments_finished attached, ← kept]
            exact congrArg _ (takeFromPart_finished given)
      · split at attached
        · cases attached
        · next read =>
            rw [giveComments_finished attached, ← kept]
            exact congrArg _ (takeRead_finished read)

/-- Of nodes that start after one another, those are left that start before an offset. -/
theorem start_lt_of_mem_dropWhile {nodes : List Finished} {node : Finished}
    (stacked : nodes.Pairwise fun newer older => older.start < newer.start)
    (inside : node ∈ nodes.dropWhile fun node => decide (start ≤ node.start)) :
    node.start < start := by
  cases left : nodes.dropWhile fun node => decide (start ≤ node.start) with
  | nil => simp [left] at inside
  | cons newest rest =>
      have early := List.head_dropWhile_not (fun node : Finished => decide (start ≤ node.start))
        (l := nodes) (by simp [left])
      simp only [left, List.head_cons, decide_eq_false_iff_not, Nat.not_le] at early
      have still := stacked.sublist (List.dropWhile_sublist
        (fun node : Finished => decide (start ≤ node.start)))
      rw [left] at inside still
      rcases List.mem_cons.mp inside with rfl | older
      · exact early
      · exact Nat.lt_trans ((List.pairwise_cons.mp still).1 node older) early

end Finished

/-- The nodes that comments may still be taken from start after one another, and all comments that
have been given to nodes, or may still be, are some of those of a text. -/
structure Cared (comments : List Comment) (state : State) : Prop where
  stacked : state.finished.Pairwise fun newer older => older.start < newer.start
  tended : state.Tended comments UInt32.size []

namespace Cared

/-- What is known of the nodes and the comments implies that both are in order. -/
theorem tidy (cared : state.Cared comments) (ordered : InOrder comments) : state.Tidy := by
  have tended := cared.tended
  exact ⟨cared.stacked, ordered.sublist tended.leading, ordered.sublist tended.trailing,
    fun id attached found => (tended.among id attached found).tidy ordered⟩

/-- No node is given an empty list of comments. -/
theorem filled (cared : state.Cared comments) : state.attachments.Filled := by
  intro id attached found empty
  exact ((cared.tended.among id attached found).trailing [] empty).1 rfl

/-- Comments can be given to a node, wherever it starts and ends. -/
theorem attaches (cared : state.Cared comments) (id : NodeId) (start stop : Nat) :
    ∃ after, state.attach id start stop = .ok after :=
  (attach_moved cared.filled id start stop).imp fun _ => And.left

/-- Giving a node its comments keeps what is known of the nodes and the comments. -/
theorem attach (cared : state.Cared comments) (ordered : InOrder comments)
    (attached : state.attach id start stop = .ok after) : after.Cared comments := by
  refine ⟨?_, cared.tended.attach ordered id.toNat_lt_size (List.forall_mem_nil _) attached⟩
  · rw [attach_finished attached]
    exact List.pairwise_cons.mpr ⟨fun node inside => start_lt_of_mem_dropWhile cared.stacked inside,
      cared.stacked.sublist (List.dropWhile_sublist _)⟩

/-- The comments of a node may also be given to another one. -/
theorem copy (cared : state.Cared comments) {other : NodeId} {attached : Attached}
    (found : state.attached? id = some attached) :
    (state.setAttached other attached).Cared comments := by
  have tended := cared.tended
  exact ⟨cared.stacked, tended.set other.toNat_lt_size (tended.among id attached found)
    (List.forall_mem_nil _)⟩

/-- More comments may be read that may be given to nodes. -/
theorem goOn (cared : state.Cared comments) (longer : comments.Sublist more)
    (finished : after.finished = state.finished)
    (attachments : after.attachments = state.attachments)
    (leading : after.lexer.leading.Sublist more) (trailing : after.lexer.trailing.Sublist more) :
    after.Cared more := by
  have tended := cared.tended
  have same (id : NodeId) : after.attached? id = state.attached? id := by
    rw [attached?, attached?, attachments]
  refine ⟨finished ▸ cared.stacked, leading, trailing, ?_, ?_, List.forall_mem_nil _⟩
  · exact fun id attached found => tended.known id attached (same id ▸ found)
  · exact fun id attached found => (tended.among id attached (same id ▸ found)).mono longer

end Cared

/-- Besides, the comments are those that have been read up to the current token. -/
structure Orderly (setting : Setting) (state : State) : Prop where
  sited : state.lexer.Sited setting.toSetting
  cared : state.Cared state.lexer.comments.reverse

namespace Orderly

/-- The comments that have been read stand in the order of the text. -/
theorem ordered (orderly : state.Orderly setting) : InOrder state.lexer.comments.reverse :=
  orderly.sited.posted.recalls.ordered

theorem read (orderly : state.Orderly setting) {lexer : Lexer.State}
    (reads : state.lexer.ReadsOn setting.toSetting lexer) :
    State.Orderly setting { state with lexer := lexer } :=
  have sited := reads.sited orderly.sited
  ⟨sited, orderly.cared.goOn reads.extends_.comments.reverse.sublist rfl rfl
    sited.posted.recalls.leading sited.posted.recalls.trailing⟩

/-- A state stays orderly if only the knowledge of the code around it changes. -/
theorem note (orderly : state.Orderly setting) (notes : state.Notes after) :
    after.Orderly setting := by
  obtain ⟨strict, inType, same⟩ := notes.lexer
  have recalls := orderly.sited.posted.recalls
  have sited := orderly.sited.noted strict inType recalls.leading recalls.trailing
  rw [← same] at sited
  have comments : after.lexer.comments = state.lexer.comments := by rw [same]
  refine ⟨sited, orderly.cared.goOn ?_ notes.finished notes.attachments
    sited.posted.recalls.leading sited.posted.recalls.trailing⟩
  rw [comments]

/-- A state stays orderly when comments are given to a node. -/
theorem attach (orderly : state.Orderly setting)
    (attached : state.attach id start stop = .ok after) : after.Orderly setting := by
  have cared := orderly.cared.attach orderly.ordered attached
  have tended := cared.tended
  obtain ⟨_, _, _, _, rfl⟩ := attach_handles attached
  exact ⟨orderly.sited.noted _ _ tended.leading tended.trailing, cared⟩

/-- A state stays orderly when a node takes over the comments of another one. -/
theorem copy (orderly : state.Orderly setting) {other : NodeId} {attached : Attached}
    (found : state.attached? id = some attached) :
    (state.setAttached other attached).Orderly setting :=
  ⟨orderly.sited, orderly.cared.copy found⟩

end Orderly

/-- The first token of a text has been read, and nothing else has been done. -/
def Begun (setting : Setting) (state : State) : Prop :=
  ∃ lexer, (do Lexer.skipShebang; Lexer.nextToken : Lexer.Scan Unit) setting.toSetting
      (.initial setting.options.startsStrict) = .ok () lexer ∧
    state = { State.initial setting.options.startsStrict with lexer := lexer }

/-- A parse is orderly when it begins. -/
theorem Begun.orderly (begun : state.Begun setting) : state.Orderly setting := by
  obtain ⟨lexer, read, rfl⟩ := begun
  have sited := Lexer.begin_sited setting.toSetting _ () lexer read
  have known {id : NodeId} {attached : Attached} {goal : Prop} (found : State.attached?
      { State.initial setting.options.startsStrict with lexer := lexer } id = some attached) :
      goal := by
    simp [State.attached?, State.initial] at found
  exact ⟨sited, .nil, sited.posted.recalls.leading, sited.posted.recalls.trailing,
    fun _ _ found => known found, fun _ _ found => known found, List.forall_mem_nil _⟩

end State

/-- Whatever a parse does, its states stay orderly. -/
theorem State.Orderly.kept (setting : Setting) :
    State.Kept (Lexer.State.ReadsOn setting.toSetting) (State.Orderly setting) where
  read orderly reads := orderly.read reads
  note orderly notes := orderly.note notes
  attach orderly attached := orderly.attach attached
  copy orderly found := orderly.copy found

/-- Nothing more is read: all comments are some of those of a text. -/
def State.Settles (state : State) : Prop := ∃ comments, InOrder comments ∧ state.Cared comments

/-- After the record has been taken, the nodes and the comments stay in order. -/
theorem State.Settles.kept : State.Kept Lexer.State.Handed State.Settles where
  read := by
    rintro state _ ⟨comments, ordered, stacked, tended⟩ rfl
    exact ⟨comments, ordered, stacked, tended.leading, tended.trailing, tended.known, tended.among,
      tended.fits⟩
  note := by
    rintro state after ⟨comments, ordered, cared⟩ notes
    have tended := cared.tended
    obtain ⟨strict, inType, same⟩ := notes.lexer
    exact ⟨comments, ordered, cared.goOn (.refl _) notes.finished notes.attachments
      (same ▸ tended.leading) (same ▸ tended.trailing)⟩
  attach := by
    rintro state after id start stop ⟨comments, ordered, cared⟩ attached
    exact ⟨comments, ordered, cared.attach ordered attached⟩
  copy := by
    rintro state id other attached ⟨comments, ordered, cared⟩ found
    exact ⟨comments, ordered, cared.copy found⟩

/-- Comments can be given to the node, and after that the nodes and the comments are in order. -/
def Call.Tidies (call : Call) : Prop :=
  ∃ after, call.before.attach call.id call.start call.stop = .ok after ∧ after.Tidy

theorem State.Settles.tidies {call : Call} (settles : call.before.Settles) : call.Tidies := by
  obtain ⟨comments, ordered, cared⟩ := settles
  obtain ⟨after, attached⟩ := cared.attaches call.id call.start call.stop
  exact ⟨after, attached, (cared.attach ordered attached).tidy ordered⟩

/-- It is known which nodes a step gives comments to, and each time it does so this leaves the nodes
and the comments in order. -/
def Attends {α : Type} (setting : Setting) (reads : Lexer.State → Lexer.State → Prop)
    (action : Parse α) (state : State) : Prop :=
  Called setting reads action state ∧
    ∀ calls, Calls setting reads action state calls → ∀ call ∈ calls, call.Tidies

section Program

variable {setting : Setting} {first last : State} {mark : Mark} {node : Node}

theorem programNode_advances : Advances (programNode mark) :=
  .step fun setting => (blockParts_steps
    (rulesWithin_jumping (ruleLimit setting.source.size))).toAdvances.bind fun _ => .plain

/-- Every call on the way through a program leaves the nodes and the comments in order. -/
theorem programNode_attends (orderly : first.Orderly setting) :
    Attends setting (Lexer.State.ReadsOn setting.toSetting) (programNode mark) first := by
  refine ⟨programNode_advances.called setting first, fun calls called call inside => ?_⟩
  have before := (called.keeps (State.Orderly.kept setting) orderly).2 call inside
  exact State.Settles.tidies ⟨_, before.ordered, before.cared⟩

/-- The calls are known by which a file takes its comments. -/
theorem closeFile_called : Called setting Lexer.State.Handed (closeFile mark node) last := by
  have taken : Called setting Lexer.State.Handed (lex Lexer.takeRecord) last := by
    refine ⟨_, .lex ?_⟩
    simp only [Lexer.takeRecord, Gives.bind_iff, gives_get, gives_set, gives_pure]
    rfl
  have named (state : State) : Called setting Lexer.State.Handed freshId state :=
    .bind ⟨_, .get⟩ fun _ _ => .bind ⟨_, .note ⟨⟨_, _, rfl⟩, rfl, rfl⟩⟩ fun _ _ => ⟨_, .pure⟩
  refine taken.bind ?_
  rintro ⟨entries, comments⟩ state
  exact (named state).bind fun _ _ => .bind ⟨_, .get⟩ fun _ _ => .bind ⟨_, .attach⟩ fun _ _ =>
    .bind ⟨_, .get⟩ fun _ _ => ⟨_, .pure⟩

/-- So does every call by which the file takes the comments that are left. -/
theorem closeFile_attends (settles : last.Settles) :
    Attends setting Lexer.State.Handed (closeFile mark node) last :=
  ⟨closeFile_called, fun _ called call inside =>
    State.Settles.tidies ((called.keeps (State.Settles.kept) settles).2 call inside)⟩

end Program

end Grammar

/-- Whenever a text is parsed, comments can be given to each node that is finished, also in a trial
that the parse turns back from, and to the file in the end. After this has been done for some node,
the nodes that comments may still be taken from start after one another, and the comments that have
been given to nodes, or may still be, are in the order of the text; no list of them that belongs to
a node is empty. -/
theorem parse_attends {text : String} {options : Options} {first : Grammar.State} :
    let setting := Grammar.Setting.ofText (LineEnding.normalize text).toList options
    first.Begun setting → ∀ mark,
      Grammar.Attends setting (Lexer.State.ReadsOn setting.toSetting) (Grammar.programNode mark)
        first ∧
      ∀ node last, Grammar.programNode mark setting first = .ok node last →
        Grammar.Attends setting Lexer.State.Handed (Grammar.closeFile mark node) last := by
  intro setting begun mark
  have orderly := begun.orderly
  refine ⟨Grammar.programNode_attends orderly, fun node last ends => ?_⟩
  obtain ⟨calls, called⟩ := Grammar.programNode_advances.called setting first
  have after := (called.keeps (Grammar.State.Orderly.kept setting) orderly).1 node last ends
  exact Grammar.closeFile_attends ⟨_, after.ordered, after.cared⟩

/-- The condition of a choice is first tried as the parameters of an arrow function with a type. -/
theorem parse_attends_trial :
    let options : Options := { dialects := [.flow] }
    let setting := Grammar.Setting.ofText
      (LineEnding.normalize "/*1*/ a ? (b /*2*/) : c; // 3").toList options
    ∃ first mark node last, Grammar.State.Begun setting first ∧
      Grammar.programNode mark setting first = .ok node last ∧
      (last.attachments.toList.filter fun entry => entry.2 ≠ {}).length = 4 ∧
      Grammar.Attends setting (Lexer.State.ReadsOn setting.toSetting) (Grammar.programNode mark)
        first ∧
      Grammar.Attends setting Lexer.State.Handed (Grammar.closeFile mark node) last := by
  intro options setting
  have counted : (okState? ((do
      Grammar.lex (do Lexer.skipShebang; Lexer.nextToken)
      Grammar.programNode ⟨6, ⟨1, 6⟩⟩ : Grammar.Parse Node) setting
        (.initial options.startsStrict))).map (fun last =>
          (last.attachments.toList.filter fun entry => entry.2 ≠ {}).length) = some 4 := by
    decide +kernel
  obtain ⟨last, known, four⟩ := Option.map_eq_some_iff.mp counted
  obtain ⟨node, ends⟩ := exists_ok_of_okState? known
  rw [eq_ok_iff_succeeds, Succeeds.bind_iff, Grammar.succeeds_lex, succeeds_iff] at ends
  obtain ⟨_, lexer, read, parsed⟩ := ends
  have begun : Grammar.State.Begun setting _ := ⟨lexer, read, rfl⟩
  have same := eq_ok_iff_succeeds.mpr parsed
  have attends := parse_attends begun ⟨6, ⟨1, 6⟩⟩
  exact ⟨_, _, node, last, begun, same, four, attends.1, attends.2 node last same⟩

end EcmaSyntax
