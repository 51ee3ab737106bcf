import ParserAlgebra.Proofs.Positions
import ParserAlgebra.Session

/-!
# Checkpoints nest like brackets

A sequence of operations that closes the checkpoints it opens, and no others, gives back the stack
of checkpoints it was given. Where it leads is told by its moves alone: what lies between a
checkpoint and the return to it may as well be left out, and so may a checkpoint and its commit.
-/

namespace ParserAlgebra

namespace Cursor

namespace Operation

def opens : Operation → Bool
  | .checkpoint => true
  | _ => false

def closes : Operation → Bool
  | .backtrack | .commit => true
  | _ => false

def isMove : Operation → Bool
  | .advance | .advanceTo _ => true
  | _ => false

/-- Operations that close the checkpoints they open and, in the end, the `depth` latest of those
that were open before. -/
structure Closing (depth : Nat) (ops : List Operation) : Prop where
  closes_le : ∀ front, front <+: ops → front.countP closes ≤ front.countP opens + depth
  closes_eq : ops.countP closes = ops.countP opens + depth

/-- Operations that close the checkpoints they open, and no others. -/
abbrev Nested (ops : List Operation) : Prop :=
  Closing 0 ops

/-- What operations come to: every checkpoint that is returned to is deleted with all that lies
before the return, every checkpoint that is committed is deleted with the commit, and moves are
left. -/
inductive Leaves : List Operation → List Operation → Prop
  | nil : Leaves [] []
  | move {op : Operation} {ops moves : List Operation} (hop : op.isMove = true)
      (hrest : Leaves ops moves) : Leaves (op :: ops) (op :: moves)
  | backtracked {inner undone ops moves : List Operation} (hinner : Leaves inner undone)
      (hrest : Leaves ops moves) : Leaves (.checkpoint :: (inner ++ .backtrack :: ops)) moves
  | committed {inner kept ops moves : List Operation} (hinner : Leaves inner kept)
      (hrest : Leaves ops moves) : Leaves (.checkpoint :: (inner ++ .commit :: ops)) (kept ++ moves)

variable {op op' : Operation} {ops inner inner' rest rest' moves moves' : List Operation}
  {depth : Nat}

section Closing

theorem closing_nil_iff : Closing depth [] ↔ depth = 0 := by
  constructor
  · intro h
    simpa using h.closes_eq.symm
  · rintro rfl
    refine ⟨fun front hfront => ?_, rfl⟩
    rw [List.prefix_nil.1 hfront]
    rfl

/-- The first operation changes by how much the rest has to close. -/
theorem closing_cons_iff :
    Closing depth (op :: ops) ↔
      op.closes.toNat ≤ op.opens.toNat + depth ∧
        Closing (op.opens.toNat + depth - op.closes.toNat) ops := by
  have hcount (test : Operation → Bool) (front : List Operation) :
      (op :: front).countP test = (test op).toNat + front.countP test := by
    rw [List.countP_cons]
    cases test op <;> simp [Nat.add_comm]
  constructor
  · intro h
    have hfirst := h.closes_le [op] (by simp)
    have heq := h.closes_eq
    simp only [hcount, List.countP_nil] at hfirst heq
    refine ⟨by omega, fun front hfront => ?_, by omega⟩
    have hle := h.closes_le (op :: front) ((List.prefix_cons_inj op).2 hfront)
    simp only [hcount] at hle
    omega
  · rintro ⟨hfirst, h⟩
    have heq := h.closes_eq
    refine ⟨fun front hfront => ?_, by simp only [hcount]; omega⟩
    rcases List.prefix_cons_iff.1 hfront with rfl | ⟨behind, rfl, hbehind⟩
    · simp
    · have hle := h.closes_le behind hbehind
      simp only [hcount]
      omega

theorem closing_checkpoint_iff :
    Closing depth (.checkpoint :: ops) ↔ Closing (depth + 1) ops := by
  simp [closing_cons_iff, opens, closes, Nat.add_comm]

theorem closing_move_iff (hop : op.isMove = true) :
    Closing depth (op :: ops) ↔ Closing depth ops := by
  cases op <;> simp_all [closing_cons_iff, opens, closes, isMove]

theorem closing_close_iff (hop : op.closes = true) :
    Closing depth (op :: ops) ↔ ∃ outer, depth = outer + 1 ∧ Closing outer ops := by
  have hopens : op.opens = false := by cases op <;> simp_all [opens, closes]
  rw [closing_cons_iff, hop, hopens]
  cases depth <;> simp

end Closing

namespace Leaves

/-- What is nested has no part in what the rest has to close. -/
theorem closing_append_iff (h : Leaves inner moves) :
    Closing depth (inner ++ rest) ↔ Closing depth rest := by
  induction h generalizing depth rest with
  | nil => rfl
  | move hop _ ih =>
      rw [List.cons_append, closing_move_iff hop, ih]
  | backtracked _ _ ihinner ihrest =>
      rw [List.cons_append, List.append_assoc, closing_checkpoint_iff, ihinner, List.cons_append,
        closing_close_iff rfl]
      simp [ihrest]
  | committed _ _ ihinner ihrest =>
      rw [List.cons_append, List.append_assoc, closing_checkpoint_iff, ihinner, List.cons_append,
        closing_close_iff rfl]
      simp [ihrest]

theorem nested (h : Leaves ops moves) : Nested ops := by
  have happend : Closing 0 (ops ++ []) ↔ Closing 0 [] := h.closing_append_iff
  rw [List.append_nil] at happend
  exact happend.2 (closing_nil_iff.2 rfl)

/-- A nested sequence ends where the first operation closes a checkpoint from before it. -/
theorem not_nested_append (h : Leaves inner moves) (hop : op.closes = true) :
    ¬ Nested (inner ++ op :: rest) := by
  rw [Nested, h.closing_append_iff, closing_close_iff hop]
  rintro ⟨outer, houter, -⟩
  cases houter

theorem eq_of_append_eq (h : Leaves inner moves) (h' : Leaves inner' moves')
    (hop : op.closes = true) (hop' : op'.closes = true)
    (heq : inner ++ op :: rest = inner' ++ op' :: rest') :
    inner = inner' ∧ op = op' ∧ rest = rest' := by
  rcases List.append_eq_append_iff.1 heq with ⟨more, rfl, hmore⟩ | ⟨more, rfl, hmore⟩
  · cases more with
    | nil => simpa using hmore
    | cons first more =>
        obtain ⟨rfl, -⟩ := List.cons.inj hmore
        exact absurd h'.nested (h.not_nested_append hop)
  · cases more with
    | nil => simpa [eq_comm] using hmore
    | cons first more =>
        obtain ⟨rfl, -⟩ := List.cons.inj hmore
        exact absurd h.nested (h'.not_nested_append hop')

theorem unique (h : Leaves ops moves) (h' : Leaves ops moves') : moves = moves' := by
  induction h generalizing moves' with
  | nil =>
      cases h'
      rfl
  | move hop hrest ih =>
      cases h' with
      | move _ hrest' => rw [ih hrest']
      | backtracked | committed => cases hop
  | backtracked hinner hrest _ ih =>
      generalize hops : Operation.checkpoint :: _ = ops at h'
      cases h' with
      | nil => cases hops
      | move hop =>
          obtain ⟨rfl, -⟩ := List.cons.inj hops
          cases hop
      | backtracked hinner' hrest' =>
          obtain ⟨-, -, rfl⟩ := hinner.eq_of_append_eq hinner' rfl rfl (List.cons.inj hops).2
          exact ih hrest'
      | committed hinner' hrest' =>
          obtain ⟨-, hop, -⟩ := hinner.eq_of_append_eq hinner' rfl rfl (List.cons.inj hops).2
          cases hop
  | committed hinner hrest ihinner ih =>
      generalize hops : Operation.checkpoint :: _ = ops at h'
      cases h' with
      | nil => cases hops
      | move hop =>
          obtain ⟨rfl, -⟩ := List.cons.inj hops
          cases hop
      | backtracked hinner' hrest' =>
          obtain ⟨-, hop, -⟩ := hinner.eq_of_append_eq hinner' rfl rfl (List.cons.inj hops).2
          cases hop
      | committed hinner' hrest' =>
          obtain ⟨rfl, -, rfl⟩ := hinner.eq_of_append_eq hinner' rfl rfl (List.cons.inj hops).2
          rw [ihinner hinner', ih hrest']

theorem isMove (h : Leaves ops moves) : ∀ op ∈ moves, op.isMove = true := by
  induction h with
  | nil => simp
  | move hop _ ih => exact List.forall_mem_cons.2 ⟨hop, ih⟩
  | backtracked _ _ _ ih => exact ih
  | committed _ _ ihinner ih => exact List.forall_mem_append.2 ⟨ihinner, ih⟩

end Leaves

/-- What comes before the first operation that closes a checkpoint from before is nested. -/
theorem Closing.exists_leaves (h : Closing depth ops) :
    ∃ inner moves rest, ops = inner ++ rest ∧ Leaves inner moves ∧
      ∀ op ∈ rest.head?, op.closes = true := by
  -- The rest behind a checkpoint is taken apart twice, so the induction is on its length.
  induction hlength : ops.length using Nat.strong_induction_on generalizing ops depth with
  | _ n ih =>
    subst hlength
    cases ops with
    | nil => exact ⟨[], [], [], rfl, .nil, by simp⟩
    | cons op ops =>
        have hmove (hop : op.isMove = true) : ∃ inner moves rest, op :: ops = inner ++ rest ∧
            Leaves inner moves ∧ ∀ op ∈ rest.head?, op.closes = true := by
          obtain ⟨inner, moves, rest, rfl, hinner, hrest⟩ :=
            ih _ (by simp) ((closing_move_iff hop).1 h) rfl
          exact ⟨op :: inner, op :: moves, rest, rfl, .move hop hinner, hrest⟩
        cases op with
        | advance => exact hmove rfl
        | advanceTo target => exact hmove rfl
        | backtrack => exact ⟨[], [], _, rfl, .nil, by simp [closes]⟩
        | commit => exact ⟨[], [], _, rfl, .nil, by simp [closes]⟩
        | checkpoint =>
            obtain ⟨inner, kept, rest, rfl, hinner, hclose⟩ :=
              ih _ (by simp) (closing_checkpoint_iff.1 h) rfl
            have hrest := hinner.closing_append_iff.1 (closing_checkpoint_iff.1 h)
            cases rest with
            | nil => cases closing_nil_iff.1 hrest
            | cons op rest =>
                have hop : op.closes = true := hclose op rfl
                obtain ⟨outer, -, houter⟩ := (closing_close_iff hop).1 hrest
                obtain ⟨more, moves, rest, rfl, hmore, hend⟩ :=
                  ih _ (by simp; omega) houter rfl
                cases op with
                | backtrack =>
                    exact ⟨_, _, rest, by simp, .backtracked hinner hmore, hend⟩
                | commit =>
                    exact ⟨_, _, rest, by simp, .committed hinner hmore, hend⟩
                | advance | advanceTo _ | checkpoint => cases hop

theorem nested_iff : Nested ops ↔ ∃ moves, Leaves ops moves := by
  constructor
  · intro h
    obtain ⟨inner, moves, rest, rfl, hinner, hclose⟩ := h.exists_leaves
    cases rest with
    | nil => exact ⟨moves, by rwa [List.append_nil]⟩
    | cons op rest => exact absurd h (hinner.not_nested_append (hclose op rfl))
  · rintro ⟨moves, hmoves⟩
    exact hmoves.nested

/-- The command that carries out an operation on the cursor of a session. -/
def command : Operation → Command
  | .advance => .advance
  | .advanceTo target => .advanceTo target
  | .checkpoint => .checkpoint
  | .backtrack => .backtrack
  | .commit => .commit

end Operation

open Operation

/-- Operations carried out one after the other, unless one of them is refused. -/
def performAll (ops : List Operation) (c : Cursor) : Except Fault Cursor :=
  ops.foldlM (fun c op => op.perform c) c

variable {c d : Cursor} {op : Operation} {ops moves : List Operation}

theorem performAll_append (ops ops' : List Operation) (c : Cursor) :
    c.performAll (ops ++ ops') = c.performAll ops >>= performAll ops' :=
  List.foldlM_append

theorem performAll_cons_of_ok (h : op.perform c = .ok d) (ops : List Operation) :
    c.performAll (op :: ops) = d.performAll ops := by
  unfold performAll
  rw [List.foldlM_cons, h]
  rfl

/-- Between a checkpoint and what closes it. -/
theorem performAll_bracket (h : c.checkpoint.performAll ops = .ok d) (op : Operation)
    (rest : List Operation) :
    c.performAll (.checkpoint :: (ops ++ op :: rest)) = d.performAll (op :: rest) := by
  have hopen : Operation.checkpoint.perform c = .ok c.checkpoint := rfl
  rw [performAll_cons_of_ok hopen, performAll_append, h]
  rfl

/-- Moves are never refused, and what the stack holds makes no difference to them. -/
theorem exists_perform_of_isMove (hop : op.isMove = true) (c : Cursor) :
    ∃ d : Cursor, d.input = c.input ∧
      ∀ ps, op.perform (c.withCheckpoints ps) = .ok (d.withCheckpoints ps) := by
  cases op with
  | advance => exact ⟨c.advance, rfl, fun ps => rfl⟩
  | advanceTo target => exact ⟨c.advanceTo target, rfl, fun ps => rfl⟩
  | checkpoint | backtrack | commit => cases hop

/-- What is nested gives back the stack, whatever it holds, and leads where its moves lead. -/
theorem exists_performAll (h : Leaves ops moves) (c : Cursor) :
    ∃ d : Cursor, d.input = c.input ∧ ∀ ps,
      (c.withCheckpoints ps).performAll ops = .ok (d.withCheckpoints ps) ∧
        (c.withCheckpoints ps).performAll moves = .ok (d.withCheckpoints ps) := by
  induction h generalizing c with
  | nil => exact ⟨c, rfl, fun ps => ⟨rfl, rfl⟩⟩
  | move hop _ ih =>
      obtain ⟨next, hnext, hperform⟩ := exists_perform_of_isMove hop c
      obtain ⟨d, hd, hrest⟩ := ih next
      refine ⟨d, hd.trans hnext, fun ps => ?_⟩
      rw [performAll_cons_of_ok (hperform ps), performAll_cons_of_ok (hperform ps)]
      exact hrest ps
  | backtracked _ _ ihinner ihrest =>
      obtain ⟨e, he, hinner⟩ := ihinner c
      obtain ⟨d, hd, hrest⟩ := ihrest c
      refine ⟨d, hd, fun ps => ⟨?_, (hrest ps).2⟩⟩
      have hback : Operation.backtrack.perform (e.withCheckpoints (c.place :: ps)) =
          .ok (c.withCheckpoints ps) := by
        simp [perform, Cursor.backtrack, withCheckpoints, he]
      rw [performAll_bracket (hinner (c.place :: ps)).1, performAll_cons_of_ok hback]
      exact (hrest ps).1
  | committed _ _ ihinner ihrest =>
      obtain ⟨e, he, hinner⟩ := ihinner c
      obtain ⟨d, hd, hrest⟩ := ihrest e
      refine ⟨d, hd.trans he, fun ps => ⟨?_, ?_⟩⟩
      · have hcommit : Operation.commit.perform (e.withCheckpoints (c.place :: ps)) =
            .ok (e.withCheckpoints ps) := rfl
        rw [performAll_bracket (hinner (c.place :: ps)).1, performAll_cons_of_ok hcommit]
        exact (hrest ps).1
      · rw [performAll_append, (hinner ps).2]
        exact (hrest ps).2

/-- In a session, too, an operation that is refused changes nothing. -/
theorem perform_command_of_error (verbosity : Verbosity) {s : Session} {f : Fault}
    (h : op.perform s.cursor = .error f) :
    s.perform verbosity op.command = (s.sweep, .refused (.stop (.fault f)), []) := by
  obtain ⟨⟨input, place, checkpoints⟩, journal, store, names, arenas, texts, positions⟩ := s
  cases op with
  | advance | advanceTo _ | checkpoint => cases h
  | backtrack | commit =>
      cases checkpoints with
      | nil =>
          cases h
          rfl
      | cons => cases h

/-- A nested sequence and its moves lead to the same cursor, with the stack as it was. -/
theorem exists_performAll_of_leaves (h : Leaves ops moves) (c : Cursor) :
    ∃ d : Cursor, d.checkpoints = c.checkpoints ∧ c.performAll ops = .ok d ∧
      c.performAll moves = .ok d := by
  obtain ⟨d, -, hperform⟩ := exists_performAll h c
  exact ⟨d.withCheckpoints c.checkpoints, rfl, hperform c.checkpoints⟩

/-- Operations that close the checkpoints they open, and no others, are not refused and give back
the stack. Between a checkpoint and the return to it they come to nothing; between a checkpoint and
its commit they lead where they lead without the two, which is where their moves lead once the
brackets are deleted. Closing a checkpoint is refused if and only if none is open, and then changes
nothing, neither of the cursor nor of a session that it belongs to. -/
theorem checkpoints_pair_up (c : Cursor) :
    (∀ ops, Nested ops → ∃ d moves,
      c.performAll ops = .ok d ∧ d.checkpoints = c.checkpoints ∧
        c.performAll (.checkpoint :: (ops ++ [.backtrack])) = .ok c ∧
        c.performAll (.checkpoint :: (ops ++ [.commit])) = .ok d ∧
        (∀ moves', Leaves ops moves' ↔ moves' = moves) ∧
        (∀ op ∈ moves, op.isMove = true) ∧ c.performAll moves = .ok d) ∧
    (∀ f, Operation.backtrack.perform c = .error f ↔
      c.checkpoints = [] ∧ f = .backtrackWithoutCheckpoint) ∧
    (∀ f, Operation.commit.perform c = .error f ↔
      c.checkpoints = [] ∧ f = .commitWithoutCheckpoint) ∧
    ∀ (op : Operation) (f : Fault), op.perform c = .error f → op.apply c = c ∧
      ∀ verbosity (s : Session), s.cursor = c →
        s.perform verbosity op.command = (s.sweep, .refused (.stop (.fault f)), []) ∧
          s.sweep.cursor = c := by
  refine ⟨fun ops h => ?_, fun f => backtrack_eq_error_iff, fun f => commit_eq_error_iff,
    fun op f h => ⟨?_, ?_⟩⟩
  · obtain ⟨moves, hmoves⟩ := nested_iff.1 h
    obtain ⟨d, hstack, hops, hd⟩ := exists_performAll_of_leaves hmoves c
    obtain ⟨e, -, hback, he⟩ := exists_performAll_of_leaves (.backtracked hmoves .nil) c
    obtain ⟨e', -, hcommit, he'⟩ := exists_performAll_of_leaves (.committed hmoves .nil) c
    obtain rfl : c = e := Except.ok.inj he
    obtain rfl : d = e' := by
      rw [List.append_nil] at he'
      exact Except.ok.inj (hd.symm.trans he')
    have hunique (moves' : List Operation) : Leaves ops moves' ↔ moves' = moves := by
      constructor
      · intro h'
        exact h'.unique hmoves
      · rintro rfl
        exact hmoves
    exact ⟨d, moves, hops, hstack, hback, hcommit, hunique, hmoves.isMove, hd⟩
  · rw [Operation.apply, h]
  · rintro verbosity s rfl
    exact ⟨perform_command_of_error verbosity h, rfl⟩

/-- On the second row, above a checkpoint from before, a bracket that is committed with two more in
it; and a session without a checkpoint. -/
theorem checkpoints_pair_up_rows :
    let c := ((ofInput ['é', '\n', 'ß', 'b']).advance.checkpoint).advance
    let ops : List Operation :=
      [.checkpoint, .advance, .checkpoint, .advance, .backtrack, .checkpoint, .commit, .commit]
    let d : Cursor := { c with place := ⟨⟨5, 2, 2, 3⟩, ['b']⟩ }
    let fault : Refusal := .stop (.fault .backtrackWithoutCheckpoint)
    Nested ops ∧ c.performAll ops = .ok d ∧
      c.performAll (.checkpoint :: (ops ++ [.backtrack])) = .ok c ∧
      c.performAll (.checkpoint :: (ops ++ [.commit])) = .ok d ∧ Leaves ops [.advance] ∧
      c.performAll [.advance] = .ok d ∧ d.depth = 1 ∧
      Session.initial.perform .off .backtrack = (Session.initial.sweep, .refused fault, []) := by
  intro c ops d fault
  have htakenBack : Leaves [.advance] [.advance] := .move rfl .nil
  have hempty : Leaves [.checkpoint, .commit] [] := .committed .nil .nil
  have hinner : Leaves [.advance, .checkpoint, .advance, .backtrack, .checkpoint, .commit]
      [.advance] := .move rfl (.backtracked htakenBack hempty)
  have hleaves : Leaves ops [.advance] := .committed hinner .nil
  obtain ⟨hpairs, -⟩ := c.checkpoints_pair_up
  obtain ⟨d', moves, hops, -, hback, hcommit, hmoves, -, hd⟩ := hpairs ops hleaves.nested
  obtain rfl : d = d' := Except.ok.inj hops
  obtain rfl : [.advance] = moves := (hmoves _).1 hleaves
  obtain ⟨-, hnone, -, hrefused⟩ := (ofInput []).checkpoints_pair_up
  have hfault := (hnone _).2 ⟨rfl, rfl⟩
  obtain ⟨-, hsession⟩ := hrefused .backtrack _ hfault
  exact ⟨hleaves.nested, hops, hback, hcommit, hleaves, hd, rfl, (hsession .off .initial rfl).1⟩

end Cursor

end ParserAlgebra
