/-
This file says what holds of the names that a program binds once it has been parsed, of the places
where it yields, of the methods in it, of what it assigns to, of the defaults in it, and of where its
breaks and continues lead to.
-/

import EcmaSyntax.Proofs.Tree.Visit
import EcmaSyntax.Proofs.Yield.Forms
import EcmaSyntax.Proofs.Yield.Program

namespace EcmaSyntax

variable {text : String} {options : Options} {file : File}

/-- In the tree of every text that is parsed each form is permitted in its code. -/
theorem parse_permitted (parsed : parse text options = .ok file) :
    file.program.Throughout (Form.Permitted False) options.mode := by
  obtain ⟨ended, read⟩ := parse_read parsed
  exact read.follows .permitting Grammar.rulesWithin_permitting False.elim
    (read.ascending.init ended.settled_tokens)

/-- In the tree of every text that is parsed the parameters of each arrow function bind no name
twice, at whatever depth of their patterns, and neither do those of any other function or method
that is in strict code or that a directive in its body makes strict. The decorators of a class may
be code of any mode. -/
theorem parse_distinct (parsed : parse text options = .ok file) :
    file.program.Throughout Form.Distinct options.mode :=
  (parse_permitted parsed).mono fun _ _ permitted => permitted.distinct

/-- A directive makes all of the code after it strict. -/
example : (parse "'use strict'; function f(a, {b: [a]}) {}" {}).isOk = false := by decide +kernel

/-- Patterns are the parameters of a method of a class, which is strict code. -/
theorem parse_distinct_method :
    ∃ file, parse "class A { m(a, {b, c: [d = 1, ...e]}) {} }" {} = .ok file ∧
      file.tokens.length = 26 ∧ file.program.Throughout Form.Distinct {} := by
  have counted : (parse "class A { m(a, {b, c: [d = 1, ...e]}) {} }" {}).toOption.map
      (fun file => file.tokens.length) = some 26 := by
    decide +kernel
  obtain ⟨file, parsed, all⟩ := exists_ok_of_map counted
  exact ⟨file, parsed, all, parse_distinct parsed⟩

/-- In the tree of every text that is parsed no name is bound in strict code that may not be bound
there: neither by the name or a parameter of a function that is strict, nor by a variable, a catch
or an import. The name of a class is none of the words that are reserved there. The decorators of a
class may be code of any mode. -/
theorem parse_bindable (parsed : parse text options = .ok file) :
    file.program.Throughout Form.Bindable options.mode :=
  (parse_permitted parsed).mono fun _ _ permitted => permitted.bindable

/-- A module is strict code, with what it imports. -/
theorem parse_bindable_module :
    ∃ file, parse "import {a as b} from 'c'; function f({d: [e]}) { var g = e }"
        { sourceType := .module } = .ok file ∧
      file.tokens.length = 27 ∧ file.program.Throughout Form.Bindable { strict := true } := by
  have counted : (parse "import {a as b} from 'c'; function f({d: [e]}) { var g = e }"
      { sourceType := .module }).toOption.map (fun file => file.tokens.length) = some 27 := by
    decide +kernel
  obtain ⟨file, parsed, all⟩ := exists_ok_of_map counted
  exact ⟨file, parsed, all, parse_bindable parsed⟩

/-- In the tree of every text that is parsed the parameters of each function that is no arrow
function are patterns, with the rest of them at their end, and so are variables and the parameters
of catches. In these two, and in the parameters of arrow functions and of functions that are
strict, nothing but names stands where something is bound, or a cast in a language with types. In
other parameters the rest of an object may be given to any expression. The decorators of a class
may be code of any mode. -/
theorem parse_patterned (parsed : parse text options = .ok file) :
    file.program.Throughout Form.Patterned options.mode :=
  (parse_permitted parsed).mono fun _ _ permitted => permitted.patterned

/-- In code that is not strict a member may be what the rest of an object is given to. -/
theorem parse_patterned_member :
    ∃ file, parse "function f({a, ...b.c}, [d = 1, ...e], ...g) { var {h} = a }" {} = .ok file ∧
      file.tokens.length = 33 ∧ file.program.Throughout Form.Patterned {} := by
  have counted : (parse "function f({a, ...b.c}, [d = 1, ...e], ...g) { var {h} = a }"
      {}).toOption.map (fun file => file.tokens.length) = some 33 := by
    decide +kernel
  obtain ⟨file, parsed, all⟩ := exists_ok_of_map counted
  exact ⟨file, parsed, all, parse_patterned parsed⟩

/-- In the tree of every text that is parsed each yield is in the body of a generator, past those
arrow functions around it whose body is an expression. The decorators of a class may be code of any
mode. -/
theorem parse_generates (parsed : parse text options = .ok file) :
    file.program.Throughout Form.Generates options.mode :=
  (parse_permitted parsed).mono fun _ _ permitted => permitted.generates

/-- A generator yields a function in which the word is a name. -/
theorem parse_generates_name :
    ∃ file, parse "function* f() { yield function () { yield(1) } }" {} = .ok file ∧
      file.tokens.length = 18 ∧ file.program.Throughout Form.Generates {} := by
  have counted : (parse "function* f() { yield function () { yield(1) } }" {}).toOption.map
      (fun file => file.tokens.length) = some 18 := by
    decide +kernel
  obtain ⟨file, parsed, all⟩ := exists_ok_of_map counted
  exact ⟨file, parsed, all, parse_generates parsed⟩

/-- In the tree of every text that is parsed the body of each class has one constructor at most. It
is a plain method of the objects of the class, no generator, not asynchronous and without
decorators, and each such method whose key is the word for it, as an identifier or a string, is that
one, but for the one method at most that is called with the class. This one has no decorators
either. No method of a class itself has the key of its prototype, unless the key is computed. Each
getter of a class or an object has no parameters, and each setter has one. -/
theorem parse_regular (parsed : parse text options = .ok file) :
    file.program.Everywhere fun node => node.form.Regular :=
  (parse_permitted parsed).everywhere fun _ _ permitted => permitted.regular

/-- The words before a key may be keys themselves. -/
theorem parse_regular_words :
    ∃ file, parse
        "class A { constructor() {} call constructor() {} get get() {} static set a(b) {} }" {} =
          .ok file ∧
      file.tokens.length = 30 ∧ file.program.Everywhere fun node => node.form.Regular := by
  have counted : (parse
      "class A { constructor() {} call constructor() {} get get() {} static set a(b) {} }"
      {}).toOption.map (fun file => file.tokens.length) = some 30 := by
    decide +kernel
  obtain ⟨file, parsed, all⟩ := exists_ok_of_map counted
  exact ⟨file, parsed, all, parse_regular parsed⟩

/-- In the tree of every text that is parsed in a language without types, the left side of each
plain assignment is a name, a member, or a pattern that takes a value apart, or an assignment in
parentheses that has become a pattern with a default; that of each other assignment is a name or a
member, and so is what each step up or down steps. The head of each loop through keys or values
declares variables, is such a target, or is an assignment that has become a pattern. -/
theorem parse_targeted (parsed : parse text options = .ok file)
    (untyped : options.hasDialect .flow = false) :
    file.program.Everywhere fun node => node.form.Targeted := by
  obtain ⟨ended, read⟩ := parse_read parsed
  exact read.follows .targeting Grammar.rulesWithin_targeting (fun _ => untyped)
    (read.ascending.init ended.settled_tokens)

/-- Names and members are assigned to, and stepped. -/
theorem parse_targeted_steps :
    ∃ file, parse "a += b.c++ - --d; for (var e of f) g *= 2" {} = .ok file ∧
      Options.hasDialect {} .flow = false ∧ file.tokens.length = 21 ∧
        file.program.Everywhere fun node => node.form.Targeted := by
  have counted : (parse "a += b.c++ - --d; for (var e of f) g *= 2" {}).toOption.map
      (fun file => file.tokens.length) = some 21 := by
    decide +kernel
  obtain ⟨file, parsed, all⟩ := exists_ok_of_map counted
  exact ⟨file, parsed, rfl, all, parse_targeted parsed rfl⟩

/-- In the tree of every text that is parsed in a language without types, no property of an object
that is an expression has a default. An object that was read with one has become a pattern. -/
theorem parse_undefaulted (parsed : parse text options = .ok file)
    (untyped : options.hasDialect .flow = false) :
    file.program.Everywhere fun node => node.form.Undefaulted := by
  obtain ⟨ended, read⟩ := parse_read parsed
  exact read.follows .undefaulting Grammar.rulesWithin_undefaulting (fun _ => untyped)
    (read.ascending.init ended.settled_tokens)

/-- An object with a default is no expression in a list, nor in parentheses. -/
example : (parse "[{a = 1}]" {}).isOk = false ∧ (parse "f(({a = 1}))" {}).isOk = false := by
  decide +kernel

/-- A variable is bound by a pattern with a default, and its value is an object without one. -/
theorem parse_undefaulted_variable :
    ∃ file, parse "var {a, b: {c = 1}} = {a, b: {c}}" {} = .ok file ∧
      Options.hasDialect {} .flow = false ∧ file.tokens.length = 23 ∧
        file.program.Everywhere fun node => node.form.Undefaulted := by
  have counted : (parse "var {a, b: {c = 1}} = {a, b: {c}}" {}).toOption.map
      (fun file => file.tokens.length) = some 23 := by
    decide +kernel
  obtain ⟨file, parsed, all⟩ := exists_ok_of_map counted
  exact ⟨file, parsed, rfl, all, parse_undefaulted parsed rfl⟩

/-- In the tree of every text that is parsed every break and continue has its aim within the
innermost function body, block that is an expression, or program around it: a break without a label
has a loop or a switch around it there, a continue without one a loop, and a jump with a label that
label, which for a continue stands before a loop. No label stands there within itself. -/
theorem parse_jumps (parsed : parse text options = .ok file) : file.program.JumpsWithin [] := by
  obtain ⟨ended, read⟩ := parse_read parsed
  exact read.follows .jumping Grammar.rulesWithin_jumping False.elim
    (read.ascending.init ended.settled_tokens)

/-- No label can be seen from the body of a function within its statement. -/
example : (parse "a: for (;;) { (function () { break a })() }" {}).isOk = false := by
  decide +kernel

/-- A continue may lead out of a switch to a loop after two labels. -/
theorem parse_jumps_labels :
    ∃ file, parse "a: b: for (;;) { switch (c) { default: continue a } }" {} = .ok file ∧
      file.tokens.length = 22 ∧ file.program.JumpsWithin [] := by
  have counted : (parse "a: b: for (;;) { switch (c) { default: continue a } }" {}).toOption.map
      (fun file => file.tokens.length) = some 22 := by
    decide +kernel
  obtain ⟨file, parsed, all⟩ := exists_ok_of_map counted
  exact ⟨file, parsed, all, parse_jumps parsed⟩

end EcmaSyntax
