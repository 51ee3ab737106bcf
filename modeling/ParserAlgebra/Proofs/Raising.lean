import ParserAlgebra.Proofs.Results
import ParserAlgebra.Proofs.RunParts

/-!
# Where errors are made

An error is made by one grammar, in a run of it: by a choice whose first branch has moved the cursor
and did not match, by a rule whose action refuses, and so on. `Makes` lists these occasions and says
for each of them what the error is, in every field.
-/

namespace ParserAlgebra

variable {σ : Type}

namespace Environment

/-- A run that began at `start` did not match although it has moved the cursor, and `e` is the error
for that, of the grammar `blamed`. -/
structure Oversteps (env : Environment σ) (message : String) (blamed : Grammar σ) (start : Position)
    (o : Outcome σ) (e : ParseError) : Prop where
  mismatched : o.verdict = .mismatched
  moved : o.config.cursor.offset ≠ start.offset
  blames : env.Blames blamed .consumed message start o.config.cursor.position o.config.cursor e

/-- The action of a grammar that began at `start` is called in the configuration `c` and fails; `e`
is the error for that. -/
structure Refuses (env : Environment σ) (g : Grammar σ) (kind : Kind) (action : Action σ)
    (args : Arguments) (start : Position) (c : Config σ) (failure : Failure) (e : ParseError) :
    Prop where
  refused : (action args (c.slot.getD kind.default) c.state).failure = some failure
  blames : env.Blames g .action failure.message start start c.cursor e

/-- There is no rule to go on with at a cursor; `e` is the error for that. -/
def Misses (c : Cursor) (e : ParseError) : Prop :=
  ParseError.locate .undefined "grammar handle used before definition" .unknown c.position
    c.position c = .ok e

/-- The run of a grammar from a configuration makes the error `e` itself. The runs of its parts have
a depth of `n` left. -/
inductive Makes (env : Environment σ) (n : Nat) :
    Grammar σ → Config σ → ParseError → Prop
  | expect {p : Predicate} {c : Config σ} {e : ParseError}
      (hrejected : ¬ p.accepts c.cursor.symbol? = true)
      (he : env.Blames (.expect p) .expected "unexpected symbol" c.cursor.position
        c.cursor.position c.cursor e) : Makes env n (.expect p) c e
  | choice {a b : Grammar σ} {c : Config σ} {o : Outcome σ} {e : ParseError}
      (ha : env.run n a c = .ok o) (he : env.Oversteps branchConsumed a c.cursor.position o e) :
      Makes env n (.choice a b) c e
  | option {item : Grammar σ} {c : Config σ} {o : Outcome σ} {e : ParseError}
      (hitem : env.run n item c = .ok o)
      (he : env.Oversteps branchConsumed item c.cursor.position o e) :
      Makes env n (.option item) c e
  | repetition {atLeast : Nat} {item : Grammar σ} {c d : Config σ} {o : Outcome σ}
      {e : ParseError} (hround : env.RunsPart n (.repetition atLeast item) c item d)
      (hitem : env.run n item d = .ok o)
      (he : env.Oversteps iterationConsumed item d.cursor.position o e) :
      Makes env n (.repetition atLeast item) c e
  | sepBy {item separator : Grammar σ} {c d : Config σ} {o : Outcome σ} {e : ParseError}
      (hround : env.RunsPart n (.sepBy item separator) c separator { d with slot := none })
      (hseparated : separated (env.run n) item separator d = .ok o)
      (he : env.Oversteps iterationConsumed (.sepBy item separator) d.cursor.position o e) :
      Makes env n (.sepBy item separator) c e
  | alternative {kind : Kind} {action : Action σ} {parts : List (Kind × Grammar σ)}
      {part : Kind × Grammar σ} {c d : Config σ} {o : Outcome σ} {e : ParseError}
      (hmem : part ∈ parts) (htried : env.RunsPart n (.any kind action parts) c part.2 d)
      (hpart : env.run n part.2 d = .ok o)
      (he : env.Oversteps branchConsumed part.2 c.cursor.position o e) :
      Makes env n (.any kind action parts) c e
  | strict {message : String} {item : Grammar σ} {c : Config σ} {o : Outcome σ} {e : ParseError}
      (hitem : env.run n item c = .ok o) (hmismatched : o.verdict = .mismatched)
      (he : env.Blames item .strict message c.cursor.position o.config.cursor.position
        o.config.cursor e) : Makes env n (.strict message item) c e
  | all {kind : Kind} {action : Action σ} {parts : List (Kind × Grammar σ)} {c : Config σ}
      {values : List Value} {o : Outcome σ} {failure : Failure} {e : ParseError}
      (hparts : runAll (env.run n) parts c = .ok (values, o)) (hmatched : o.verdict = .matched)
      (he : env.Refuses (.all kind action parts) kind action ⟨values, none⟩ c.cursor.position
        o.config failure e) : Makes env n (.all kind action parts) c e
  | any {kind : Kind} {action : Action σ} {parts : List (Kind × Grammar σ)} {c : Config σ}
      {i : Nat} {v : Value} {o : Outcome σ} {failure : Failure} {e : ParseError}
      (hparts : env.runAny (env.run n) c.cursor.position 0 parts c = .ok (some (i, v), o))
      (hmatched : o.verdict = .matched)
      (he : env.Refuses (.any kind action parts) kind action ⟨[v], some i⟩ c.cursor.position
        o.config failure e) : Makes env n (.any kind action parts) c e
  | handle {slot : Slot} {c : Config σ} {e : ParseError}
      (hslot : env.store.handle? slot = none) (he : Misses c.cursor e) :
      Makes env n (.handle slot) c e
  | fixed {hold : Hold} {name : String} {rule : RuleId} {c : Config σ} {e : ParseError}
      (hrule : env.store.fixed? rule = none) (he : Misses c.cursor e) :
      Makes env n (.fixed hold name rule) c e

end Environment

/-- Whether runs of a grammar may make an error of a kind themselves. -/
def Store.Raises (store : Store σ) : Grammar σ → ErrorKind → Prop
  | .choice _ _, .consumed | .repetition _ _, .consumed | .option _, .consumed
  | .sepBy _ _, .consumed | .any _ _ _, .consumed => True
  | .expect _, .expected => True
  | .strict _ _, .strict => True
  | .all _ _ _, .action | .any _ _ _, .action => True
  | .handle slot, .undefined => store.handle? slot = none
  | .fixed _ _ rule, .undefined => store.fixed? rule = none
  | _, _ => False

/-- No grammar finds fault with input that is left. -/
theorem Store.not_raises_trailing (store : Store σ) (g : Grammar σ) :
    ¬ store.Raises g .trailing := by
  cases g <;> exact id

namespace Environment

variable {env : Environment σ} {n : Nat} {g h : Grammar σ} {c d : Config σ} {e : ParseError}

theorem Misses.kind_and_expectation {c : Cursor} (he : Misses c e) :
    e.kind = .undefined ∧ e.expectation = .unknown := by
  obtain ⟨_, _, -, -, rfl⟩ := ParseError.eq_of_locate he
  exact ⟨rfl, rfl⟩

theorem Makes.raises (hmakes : env.Makes n g c e) : env.store.Raises g e.kind := by
  cases hmakes with
  | expect _ he => rw [he.kind]; trivial
  | choice _ he => rw [he.blames.kind]; trivial
  | option _ he => rw [he.blames.kind]; trivial
  | repetition _ _ he => rw [he.blames.kind]; trivial
  | sepBy _ _ he => rw [he.blames.kind]; trivial
  | alternative _ _ _ he => rw [he.blames.kind]; trivial
  | strict _ _ he => rw [he.kind]; trivial
  | all _ _ he => rw [he.blames.kind]; trivial
  | any _ _ he => rw [he.blames.kind]; trivial
  | handle hslot he => rw [he.kind_and_expectation.1]; exact hslot
  | fixed hrule he => rw [he.kind_and_expectation.1]; exact hrule

/-- What an error says was expected is the written form of something that its maker involves, but
for rules that are missing. -/
theorem Makes.expectation (hmakes : env.Makes n g c e) : e.expectation = .unknown ∨
    ∃ q, env.store.Involves g q ∧ env.expectationOf q = .ok e.expectation := by
  have hself : env.store.Involves g g := Relation.ReflTransGen.refl
  cases hmakes with
  | expect _ he => exact .inr ⟨_, hself, he.expectation⟩
  | choice _ he => exact .inr ⟨_, .of_component (.head _), he.blames.expectation⟩
  | option _ he => exact .inr ⟨_, .of_component (.head _), he.blames.expectation⟩
  | repetition _ _ he => exact .inr ⟨_, .of_component (.head _), he.blames.expectation⟩
  | sepBy _ _ he => exact .inr ⟨_, hself, he.blames.expectation⟩
  | alternative hmem _ _ he =>
      exact .inr ⟨_, .of_component (List.mem_map_of_mem hmem), he.blames.expectation⟩
  | strict _ _ he => exact .inr ⟨_, .of_component (.head _), he.expectation⟩
  | all _ _ he => exact .inr ⟨_, hself, he.blames.expectation⟩
  | any _ _ he => exact .inr ⟨_, hself, he.blames.expectation⟩
  | handle _ he => exact .inl he.kind_and_expectation.2
  | fixed _ he => exact .inl he.kind_and_expectation.2

/-- The error `e` is made in the course of a run of `g` from `c`: something that the grammar
involves is run in it, makes the error itself and ends with it. -/
def MadeWithin (env : Environment σ) (n : Nat) (g : Grammar σ) (c : Config σ) (e : ParseError) :
    Prop :=
  ∃ m q d, env.RunsWithin (m + 1) q d n g c ∧ env.Makes m q d e ∧
    Fails e (env.run (m + 1) q d) ∧ env.store.Involves g q

theorem MadeWithin.of_makes (hmakes : env.Makes n g c e) (hfails : Fails e (env.run (n + 1) g c)) :
    env.MadeWithin (n + 1) g c e :=
  ⟨n, g, c, .here, hmakes, hfails, Relation.ReflTransGen.refl⟩

theorem MadeWithin.of_runsPart (hh : h ∈ env.store.components g) (hpart : env.RunsPart n g c h d)
    (hmade : env.MadeWithin n h d e) : env.MadeWithin (n + 1) g c e := by
  obtain ⟨m, q, d', hwithin, hmakes, hfails, hq⟩ := hmade
  exact ⟨m, q, d', .inside hpart hwithin, hmakes, hfails, (Store.Involves.of_component hh).trans hq⟩

end Environment

end ParserAlgebra
