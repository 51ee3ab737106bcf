import ParserAlgebra.Proofs.Recognition

/-!
# Parsing expressions

Parsing expressions say by rules of their own what is taken from an offset on, or that nothing can
be: choices are ordered, repetitions greedy. As grammars they have an attempt around each sequence,
so all of them are guarded; and they are recognizers.
-/

namespace ParserAlgebra

/-- A parsing expression over rules that are known by names. -/
inductive ParsingExpression (Name : Type) where
  /-- A symbol of a class, to which the end of the input does not belong. -/
  | symbol (cls : Predicate) (hcls : cls.accepts none = false)
  | literal (text : String)
  | empty
  | failure
  | sequence (first second : ParsingExpression Name)
  | choice (first second : ParsingExpression Name)
  | star (item : ParsingExpression Name)
  | plus (item : ParsingExpression Name)
  | optional (item : ParsingExpression Name)
  | rule (name : Name)

namespace ParsingExpression

variable {Name σ : Type}

/-- What an expression makes of an input at a byte offset: it succeeds up to another offset, or it
fails, which is `none`. Where it does neither there is no derivation. -/
inductive Parses (rules : Name → ParsingExpression Name) (input : List Char) :
    ParsingExpression Name → Nat → Option Nat → Prop
  | symbol {cls : Predicate} {hcls : cls.accepts none = false} {i : Nat} {s : Char}
      {rest : List Char} (hahead : Text.dropBytes? i input = some (s :: rest))
      (hs : cls.accepts (some s) = true) :
      Parses rules input (.symbol cls hcls) i (some (i + s.utf8Size))
  | symbolFails {cls : Predicate} {hcls : cls.accepts none = false} {i : Nat} {ahead : List Char}
      (hahead : Text.dropBytes? i input = some ahead) (hs : cls.accepts ahead.head? = false) :
      Parses rules input (.symbol cls hcls) i none
  | literal {text : String} {i : Nat} {rest : List Char}
      (hahead : Text.dropBytes? i input = some (text.toList ++ rest)) :
      Parses rules input (.literal text) i (some (i + Text.byteLength text.toList))
  | literalFails {text : String} {i : Nat} {ahead : List Char}
      (hahead : Text.dropBytes? i input = some ahead) (htext : ¬ text.toList <+: ahead) :
      Parses rules input (.literal text) i none
  | empty {i : Nat} : Parses rules input .empty i (some i)
  | failure {i : Nat} : Parses rules input .failure i none
  | sequence {a b : ParsingExpression Name} {i k : Nat} {r : Option Nat}
      (ha : Parses rules input a i (some k)) (hb : Parses rules input b k r) :
      Parses rules input (.sequence a b) i r
  | sequenceFails {a b : ParsingExpression Name} {i : Nat} (ha : Parses rules input a i none) :
      Parses rules input (.sequence a b) i none
  | choice {a b : ParsingExpression Name} {i j : Nat} (ha : Parses rules input a i (some j)) :
      Parses rules input (.choice a b) i (some j)
  | choiceElse {a b : ParsingExpression Name} {i : Nat} {r : Option Nat}
      (ha : Parses rules input a i none) (hb : Parses rules input b i r) :
      Parses rules input (.choice a b) i r
  /-- A repetition stops where its item fails. -/
  | starStops {e : ParsingExpression Name} {i : Nat} (he : Parses rules input e i none) :
      Parses rules input (.star e) i (some i)
  /-- It stops as well once its item has taken nothing. -/
  | starEmpty {e : ParsingExpression Name} {i : Nat} (he : Parses rules input e i (some i)) :
      Parses rules input (.star e) i (some i)
  | starMore {e : ParsingExpression Name} {i k : Nat} {r : Option Nat}
      (he : Parses rules input e i (some k)) (hmoved : k ≠ i)
      (hrest : Parses rules input (.star e) k r) : Parses rules input (.star e) i r
  | plus {e : ParsingExpression Name} {i k : Nat} {r : Option Nat}
      (he : Parses rules input e i (some k)) (hrest : Parses rules input (.star e) k r) :
      Parses rules input (.plus e) i r
  | plusFails {e : ParsingExpression Name} {i : Nat} (he : Parses rules input e i none) :
      Parses rules input (.plus e) i none
  | optional {e : ParsingExpression Name} {i j : Nat} (he : Parses rules input e i (some j)) :
      Parses rules input (.optional e) i (some j)
  | optionalSkips {e : ParsingExpression Name} {i : Nat} (he : Parses rules input e i none) :
      Parses rules input (.optional e) i (some i)
  | rule {name : Name} {i : Nat} {r : Option Nat} (hbody : Parses rules input (rules name) i r) :
      Parses rules input (.rule name) i r

/-- The grammar of an expression, where each name stands for the handle of a slot. -/
def toGrammar (slots : Name → Slot) : ParsingExpression Name → Grammar σ
  | .symbol cls _ => .accept cls
  | .literal text => .literal text
  | .empty => .succeed
  | .failure => .fail
  | .sequence a b => .attempt (.sequence (a.toGrammar slots) (b.toGrammar slots))
  | .choice a b => .choice (a.toGrammar slots) (b.toGrammar slots)
  | .star e => .many (e.toGrammar slots)
  | .plus e => .manyOne (e.toGrammar slots)
  | .optional e => .option (e.toGrammar slots)
  | .rule name => .handle (slots name)

/-- A store in which the slot of each name holds the grammar of its rule. -/
def DefinedIn (store : Store σ) (slots : Name → Slot) (rules : Name → ParsingExpression Name) :
    Prop :=
  ∀ name, store.handle? (slots name) = some ((rules name).toGrammar slots)

variable {rules : Name → ParsingExpression Name} {slots : Name → Slot} {input : List Char}

/-- An expression has one answer at most. -/
theorem Parses.unique {e : ParsingExpression Name} {i : Nat} {r r' : Option Nat}
    (h : e.Parses rules input i r) (h' : e.Parses rules input i r') : r = r' := by
  induction h generalizing r' with
  | symbol hahead hs =>
      cases h' with
      | symbol hahead' _ =>
          obtain ⟨rfl, -⟩ := List.cons.inj (Option.some.inj (hahead.symm.trans hahead'))
          rfl
      | symbolFails hahead' hs' =>
          obtain rfl := Option.some.inj (hahead.symm.trans hahead')
          exact absurd (hs.symm.trans hs') (by decide)
  | symbolFails hahead hs =>
      cases h' with
      | symbol hahead' hs' =>
          obtain rfl := Option.some.inj (hahead.symm.trans hahead')
          exact absurd (hs.symm.trans hs') (by decide)
      | symbolFails => rfl
  | literal hahead =>
      cases h' with
      | literal => rfl
      | literalFails hahead' htext =>
          obtain rfl := Option.some.inj (hahead.symm.trans hahead')
          exact absurd (List.prefix_append _ _) htext
  | literalFails hahead htext =>
      cases h' with
      | literal hahead' =>
          obtain rfl := Option.some.inj (hahead.symm.trans hahead')
          exact absurd (List.prefix_append _ _) htext
      | literalFails => rfl
  | empty => cases h'; rfl
  | failure => cases h'; rfl
  | sequence ha hb iha ihb =>
      cases h' with
      | sequence ha' hb' =>
          obtain rfl := Option.some.inj (iha ha')
          exact ihb hb'
      | sequenceFails ha' => cases iha ha'
  | sequenceFails ha iha =>
      cases h' with
      | sequence ha' hb' => cases iha ha'
      | sequenceFails => rfl
  | choice ha iha =>
      cases h' with
      | choice ha' => exact iha ha'
      | choiceElse ha' hb' => cases iha ha'
  | choiceElse ha hb iha ihb =>
      cases h' with
      | choice ha' => cases iha ha'
      | choiceElse ha' hb' => exact ihb hb'
  | starStops he ihe =>
      cases h' with
      | starStops => rfl
      | starEmpty he' => rfl
      | starMore he' hmoved hrest => cases ihe he'
  | starEmpty he ihe =>
      cases h' with
      | starStops => rfl
      | starEmpty => rfl
      | starMore he' hmoved hrest => exact absurd (Option.some.inj (ihe he')).symm hmoved
  | starMore he hmoved hrest ihe ihrest =>
      cases h' with
      | starStops he' => cases ihe he'
      | starEmpty he' => exact absurd (Option.some.inj (ihe he')) hmoved
      | starMore he' hmoved' hrest' =>
          obtain rfl := Option.some.inj (ihe he')
          exact ihrest hrest'
  | plus he hrest ihe ihrest =>
      cases h' with
      | plus he' hrest' =>
          obtain rfl := Option.some.inj (ihe he')
          exact ihrest hrest'
      | plusFails he' => cases ihe he'
  | plusFails he ihe =>
      cases h' with
      | plus he' hrest' => cases ihe he'
      | plusFails => rfl
  | optional he ihe =>
      cases h' with
      | optional he' => exact ihe he'
      | optionalSkips he' => cases ihe he'
  | optionalSkips he ihe =>
      cases h' with
      | optional he' => cases ihe he'
      | optionalSkips => rfl
  | rule hbody ih =>
      cases h' with
      | rule hbody' => exact ih hbody'

/-- What is assumed of the rules of a store that holds parsing expressions: they are guarded. -/
def discipline (slots : Name → Slot) : Discipline :=
  ⟨fun _ => False, fun rule => ∃ name, rule = .slot (slots name)⟩

theorem guarded_toGrammar (e : ParsingExpression Name) :
    (discipline slots).Guarded (e.toGrammar slots : Grammar σ) := by
  induction e with
  | symbol cls hcls => exact .accept cls
  | literal text => exact .literal text
  | empty => exact .infallible .succeed
  | failure => exact .fail
  | sequence a b iha ihb => exact .attempt _
  | choice a b iha ihb => exact .choice _ ihb
  | star e ih => exact .infallible (.many _)
  | plus e ih => exact .manyOne _
  | optional e ih => exact .infallible (.option _)
  | rule name => exact .handle ⟨name, rfl⟩

theorem isRecognizer_toGrammar (e : ParsingExpression Name) :
    (e.toGrammar slots : Grammar σ).IsRecognizer fun rule => ∃ name, rule = .slot (slots name) := by
  induction e with
  | symbol cls hcls => trivial
  | literal text => trivial
  | empty => trivial
  | failure => trivial
  | sequence a b iha ihb => exact ⟨iha, ihb⟩
  | choice a b iha ihb => exact ⟨iha, ihb⟩
  | star e ih => exact ih
  | plus e ih => exact ih
  | optional e ih => exact ih
  | rule name => exact ⟨name, rfl⟩

namespace DefinedIn

variable {store : Store σ} (h : DefinedIn store slots rules)

include h

theorem body_eq {rule : RuleName} {body : Grammar σ} (hrule : ∃ name, rule = .slot (slots name))
    (hbody : store.body? rule = some body) : ∃ name, body = (rules name).toGrammar slots := by
  obtain ⟨name, rfl⟩ := hrule
  exact ⟨name, Option.some.inj (hbody.symm.trans (h name))⟩

theorem consistent : (discipline slots).Consistent store := by
  constructor
  · exact fun _ _ _ hinfallible => hinfallible.elim
  · intro rule body hbody hrule
    obtain ⟨name, rfl⟩ := h.body_eq hrule hbody
    exact guarded_toGrammar (rules name)

theorem isRecognizer (rule : RuleName) (body : Grammar σ)
    (hrule : ∃ name, rule = .slot (slots name)) (hbody : store.body? rule = some body) :
    body.IsRecognizer fun rule => ∃ name, rule = .slot (slots name) := by
  obtain ⟨name, rfl⟩ := h.body_eq hrule hbody
  exact isRecognizer_toGrammar (rules name)

end DefinedIn

end ParsingExpression

end ParserAlgebra
