import EcmaSyntax.Proofs.Permitted
import EcmaSyntax.Proofs.Place.Program

namespace EcmaSyntax

section Places

variable {text : String} {options : Options} {overflow : Grammar.Overflow} {file : File}

/-- In every file that is parsed each node starts at an offset of the text and ends at one that is
no earlier, and each node that it consists of lies between the two, unless it is a decorator. The
program lies within the file in the same way. -/
theorem parse_nests (parsed : parse text options = .ok file) :
    (file.start ≤ file.program.start ∧ file.program.stop ≤ file.stop ∧
      file.stop ≤ (options.setting text).source.size) ∧
    file.program.Everywhere fun node =>
      node.Encloses ∧ node.stop ≤ (options.setting text).source.size := by
  have placed := parse_placed parsed
  exact ⟨⟨placed.encloses.1, placed.encloses.2, placed.stop.le_size⟩,
    placed.sits.mono fun _ lies => ⟨lies.encloses, lies.stop.le_size⟩⟩

/-- A class starts after its decorators, and its parameters are patterns that were expressions. -/
theorem parse_nests_decorated_class :
    ∃ file, parse "@a class B { m({c} = d) {} }" {} = .ok file ∧ file.tokens.length = 17 ∧
      file.program.Everywhere fun node => node.Encloses ∧
        node.stop ≤ (Options.setting {} "@a class B { m({c} = d) {} }").source.size := by
  have counted : (parse "@a class B { m({c} = d) {} }" {}).toOption.map
      (fun file => file.tokens.length) = some 17 := by
    decide +kernel
  obtain ⟨file, parsed, all⟩ := exists_ok_of_map counted
  exact ⟨file, parsed, all, (parse_nests parsed).2⟩

/-- The elements in a tree are balanced: the closing tag of each of them has the name of its opening
tag, the elements that have none are those whose opening tag closes itself, and the tags of any two
elements nest like brackets. -/
structure Node.Balanced (node : Node) : Prop where
  matched : node.Everywhere fun node => node.form.Matched
  nested : node.tags.Pairwise Tags.Nest
  filled : ∀ tags ∈ node.tags, tags.Filled

/-- In every file that is parsed the elements are balanced. -/
theorem parse_balances (parsed : parse text options = .ok file) : file.program.Balanced := by
  have nested := (parse_placed parsed).nested
  have same : Grammar.tags [file.program] = file.program.tags := List.flatMap_singleton ..
  exact ⟨(parse_permitted parsed).everywhere fun _ _ permitted => permitted.matched,
    same ▸ nested.pairwise, same ▸ nested.filled⟩

/-- Names are joined by dots and colons, and an element stands in an attribute of another one. -/
theorem parse_balances_names :
    ∃ file, parse "<a b=\x7b<c/>\x7d><d.e>x</d.e><f:g-h></f:g-h><if/></a>"
        { dialects := [.jsx] } = .ok file ∧
      file.tokens.length = 43 ∧ file.program.Balanced := by
  have counted : (parse "<a b=\x7b<c/>\x7d><d.e>x</d.e><f:g-h></f:g-h><if/></a>"
      { dialects := [.jsx] }).toOption.map (fun file => file.tokens.length) = some 43 := by
    decide +kernel
  obtain ⟨file, parsed, all⟩ := exists_ok_of_map counted
  exact ⟨file, parsed, all, parse_balances parsed⟩

end Places

section Visits

variable {text : String} {options : Options} {number : Float → Json} {withTokens : Bool}
  {file : File}

/-- A walk through the program of a file sees all of what is written of it. -/
structure File.Visited (number : Float → Json) (withTokens : Bool) (file : File) : Prop where
  /-- The program stands in what is written of the file. -/
  written : (file.toJson number withTokens).member? "program" =
    some (file.program.toJson (file.style number))
  /-- The nodes that are visited from a node on are those in what is written of it. -/
  nodes : ∀ node ∈ file.program.walk, (node.toJson (file.style number)).nodes.Perm
    (node.walk.map (Node.toJson (file.style number)))
  /-- What is below a node is visited right after it. -/
  descends : ∀ before node after, file.program.walk = before ++ node :: after →
    node.children.flatMap Node.walk <+: after
  /-- No part of a template is left over. -/
  alternates : ∀ node ∈ file.program.walk, node.form.Alternates
  /-- The comments that have been recorded for a node are written with it. -/
  attached : ∀ node ∈ file.program.walk, ∀ attached, file.attachments[node.id]? = some attached →
    ∃ members, node.toJson (file.style number) = .object (members ++ attached.members)

/-- The tree of a file is found in what is written of the file. -/
theorem File.member?_program (file : File) : (file.toJson number withTokens).member? "program" =
    some (file.program.toJson (file.style number)) := by
  have comments : Json.lastUnder "program"
      (TreeStyle.commentMembers ⟨number, file.attachments⟩ file.id) = none := by
    refine Json.lastUnder_eq_none fun member inside same => ?_
    simpa [same] using (TreeStyle.commentMembers_plain inside).1
  rw [File.toJson, Json.member?, Json.lastUnder_append, comments, Json.lastUnder_append]
  cases withTokens <;> simp [Json.lastUnder]

/-- If the templates in a program alternate, all of it is visited. -/
theorem File.Visited.intro (plain : ∀ value, (number value).nodes = [])
    (all : file.program.Everywhere fun inner => inner.form.Alternates) :
    file.Visited number withTokens where
  written := file.member?_program
  nodes node inside := by
    have plainly : (file.style number).Plain := plain
    rw [Node.nodes_toJson_eq_map plainly]
    exact (Node.walk_perm (all.visited inside)).symm.map _
  descends _ _ _ split := Node.walk_split _ split
  alternates node inside := (all.visited inside).here
  attached node inside attached found := by
    refine Node.toJson_attached ?_
    rw [style, Node.getElem?_transferred, if_pos (List.mem_map_of_mem inside), found]

/-- A walk through the program of every text that is parsed visits each node once that stands in
what is written of the program, and what is below a node right after it. Each template has one chunk
more than it has expressions, so that none of these is left out, and the comments that have been
recorded for a node which is in the tree are written with it. -/
theorem parse_visits (parsed : parse text options = .ok file) :
    file.Visited .ofFloat withTokens :=
  .intro Json.nodes_ofFloat
    ((parse_permitted parsed).everywhere fun _ _ permitted => permitted.alternates)

/-- A template alternates between its chunks and its expressions, also where comments stand around
these. -/
theorem parse_visits_template :
    ∃ file, parse "/*1*/ f`a${b /*2*/}c`" {} = .ok file ∧ file.entries.length = 11 ∧
      file.Visited .ofFloat true := by
  have counted : (parse "/*1*/ f`a${b /*2*/}c`" {}).toOption.map
      (fun file => file.entries.length) = some 11 := by
    decide +kernel
  obtain ⟨file, parsed, all⟩ := exists_ok_of_map counted
  exact ⟨file, parsed, all, parse_visits parsed⟩

/-- In every file that is parsed the nodes below a node are visited in the order of their starts,
unless the members of the type of an object do not come kind by kind, or a static method of a class
that is declared has its signature, which starts with the word before its key. -/
theorem parse_arranges (parsed : parse text options = .ok file) :
    ∀ node ∈ file.program.walk, InStartOrder node.children ↔ node.form.InTurn := by
  intro node inside
  have sits := (parse_placed parsed).sits.visited inside
  exact Form.inStartOrder_iff sits.here.cast fun child member =>
    (sits.within (Form.mem_parts_of_mem_children member)).here.ordered

/-- The starts of the nodes below each node. -/
def File.childStarts (file : File) : List (List Nat) :=
  file.program.walk.map fun node => node.children.map Node.start

/-- A property, an indexer and a signature come in this order. -/
theorem parse_arranges_kinds :
    ∃ file, parse "type A = {p: T, [k: U]: V, (): W}" { dialects := [.flow] } = .ok file ∧
      [10, 16, 27] ∈ file.childStarts ∧
      ∀ node ∈ file.program.walk, InStartOrder node.children ↔ node.form.InTurn := by
  have counted : (parse "type A = {p: T, [k: U]: V, (): W}" { dialects := [.flow] }).toOption.map
      (fun file => file.childStarts.contains [10, 16, 27]) = some true := by
    decide +kernel
  obtain ⟨file, parsed, inTurn⟩ := exists_ok_of_map counted
  exact ⟨file, parsed, List.contains_iff_mem.mp inTurn, parse_arranges parsed⟩

/-- An indexer is visited after the property behind it. -/
theorem parse_misarranges_indexer :
    ∃ file, parse "type A = {[k: string]: T, p: number}" { dialects := [.flow] } = .ok file ∧
      ∃ node ∈ file.program.walk, ¬InStartOrder node.children := by
  have counted : (parse "type A = {[k: string]: T, p: number}" { dialects := [.flow] }).toOption.map
      (fun file => file.childStarts.contains [26, 10]) = some true := by
    decide +kernel
  obtain ⟨file, parsed, found⟩ := exists_ok_of_map counted
  obtain ⟨node, inside, starts⟩ := List.mem_map.mp (List.contains_iff_mem.mp found)
  refine ⟨file, parsed, node, inside, fun inOrder => ?_⟩
  have below : [26, 10].Pairwise (· ≤ ·) := starts ▸ List.pairwise_map.mpr inOrder
  exact absurd below (by decide)

end Visits

end EcmaSyntax
