import Peritus.Checked

/-!
Streams of lines read piecemeal.  Chunks of a stream arrive one by one; what a
separator has not ended yet is kept, and each complete line is processed.  However
the stream is cut, the outcome is that of reading it whole.
-/

namespace Peritus.LineStream

open Checked

variable {α σ ω ε : Type}

/-! ### Lines -/

/-- The lines with their separators, and then the tail. -/
def joined (separator : α) (lines : List (List α)) (tail : List α) : List α :=
  lines.flatMap (· ++ [separator]) ++ tail

/-- The lines of a stream; what follows the last separator is one if it is not
empty. -/
def linesOf [DecidableEq α] (separator : α) (stream : List α) : List (List α) :=
  let pieces := stream.splitOn separator
  pieces.dropLast ++ pieces.getLast?.toList.filter (· ≠ [])

section Lines

variable {separator : α} {lines : List (List α)} {tail rest : List α}

theorem joined_append : joined separator lines (tail ++ rest) =
    joined separator lines tail ++ rest :=
  (List.append_assoc _ _ _).symm

theorem exists_joined (separator : α) (stream : List α) : ∃ lines tail,
    stream = joined separator lines tail ∧ separator ∉ tail ∧
      ∀ line ∈ lines, separator ∉ line := by
  induction stream with
  | nil => exact ⟨[], [], rfl, List.not_mem_nil, List.forall_mem_nil _⟩
  | cons a stream ih =>
      obtain ⟨lines, tail, rfl, htail, hlines⟩ := ih
      by_cases ha : a = separator
      · refine ⟨[] :: lines, tail, by simp [joined, ha], htail, ?_⟩
        exact List.forall_mem_cons.mpr ⟨List.not_mem_nil, hlines⟩
      · cases lines with
        | nil =>
            refine ⟨[], a :: tail, rfl, ?_, List.forall_mem_nil _⟩
            rw [List.mem_cons, not_or]
            exact ⟨Ne.symm ha, htail⟩
        | cons line lines =>
            obtain ⟨hline, hlines⟩ := List.forall_mem_cons.mp hlines
            refine ⟨(a :: line) :: lines, tail, by simp [joined], htail, ?_⟩
            refine List.forall_mem_cons.mpr ⟨?_, hlines⟩
            rw [List.mem_cons, not_or]
            exact ⟨Ne.symm ha, hline⟩

section Pieces

variable [BEq α] [LawfulBEq α]

theorem splitOn_joined (hlines : ∀ line ∈ lines, separator ∉ line) :
    (joined separator lines rest).splitOn separator =
      lines ++ rest.splitOn separator := by
  induction lines with
  | nil => rfl
  | cons line lines ih =>
      obtain ⟨hline, hlines⟩ := List.forall_mem_cons.mp hlines
      have hstep : joined separator (line :: lines) rest =
          line ++ separator :: joined separator lines rest := by
        simp [joined]
      rw [hstep, List.splitOn_append_cons_self_of_not_mem hline, ih hlines]
      rfl

/-- What has no separator begins the first piece of what it is part of. -/
theorem exists_splitOn (htail : separator ∉ tail) (rest : List α) :
    ∃ more pieces, (tail ++ rest).splitOn separator = (tail ++ more) :: pieces := by
  obtain ⟨lines, last, rfl, hlast, hlines⟩ :=
    exists_joined separator rest
  cases lines with
  | nil =>
      refine ⟨last, [], List.splitOn_eq_singleton ?_⟩
      change separator ∉ tail ++ last
      rw [List.mem_append, not_or]
      exact ⟨htail, hlast⟩
  | cons line lines =>
      obtain ⟨hline, hlines⟩ := List.forall_mem_cons.mp hlines
      refine ⟨line, lines ++ last.splitOn separator, ?_⟩
      have hstream : tail ++ joined separator (line :: lines) last =
          joined separator ((tail ++ line) :: lines) last := by
        simp [joined]
      rw [hstream, splitOn_joined]
      · rfl
      · refine List.forall_mem_cons.mpr ⟨?_, hlines⟩
        rw [List.mem_append, not_or]
        exact ⟨htail, hline⟩

end Pieces

variable [DecidableEq α]

theorem linesOf_joined (hlines : ∀ line ∈ lines, separator ∉ line) :
    linesOf separator (joined separator lines rest) =
      lines ++ linesOf separator rest := by
  have hne := List.splitOn_ne_nil separator rest
  simp only [linesOf]
  rw [splitOn_joined hlines, List.dropLast_append_of_ne_nil hne,
    List.getLast?_append_of_ne_nil _ hne, List.append_assoc]

theorem linesOf_of_not_mem (htail : separator ∉ tail) (hne : tail ≠ []) :
    linesOf separator tail = [tail] := by
  simp [linesOf, List.splitOn_eq_singleton htail, hne]

@[simp] theorem linesOf_nil : linesOf separator [] = [] := by
  simp [linesOf]

/-- A tail without separators begins the first line of what it is part of. -/
theorem exists_linesOf (htail : separator ∉ tail) (hne : tail ≠ [])
    (rest : List α) : ∃ more lines, separator ∉ more ∧
      linesOf separator (tail ++ rest) = (tail ++ more) :: lines := by
  obtain ⟨lines, last, rfl, hlast, hlines⟩ := exists_joined separator rest
  cases lines with
  | nil =>
      refine ⟨last, [], hlast, ?_⟩
      refine linesOf_of_not_mem ?_ fun h => hne (List.append_eq_nil_iff.mp h).1
      rw [List.mem_append, not_or]
      exact ⟨htail, hlast⟩
  | cons line lines =>
      obtain ⟨hline, hlines⟩ := List.forall_mem_cons.mp hlines
      refine ⟨line, lines ++ linesOf separator last, hline, ?_⟩
      have hstream : tail ++ joined separator (line :: lines) last =
          joined separator ((tail ++ line) :: lines) last := by
        simp [joined]
      rw [hstream, linesOf_joined]
      · rfl
      · refine List.forall_mem_cons.mpr ⟨?_, hlines⟩
        rw [List.mem_append, not_or]
        exact ⟨htail, hline⟩

end Lines

/-! ### Readers -/

/-- How a reader treats a line, the end of the stream and what it keeps. -/
structure Rules (α σ ω ε : Type) where
  separator : α
  process : σ → List α → Except ε (σ × List ω)
  close : σ → Except ε (List ω)
  reserve : Nat → Except ε Unit
  tooLong : List α → Bool
  tooLongError : ε
  pushedError : ε
  finishedError : ε

structure Parser (α σ : Type) where
  state : σ
  pending : List α
  finished : Bool

namespace Rules

variable (rules : Rules α σ ω ε)

/-- One line after the other. -/
def readAll (state : σ) : List (List α) → Except ε (σ × List ω)
  | [] => .ok (state, [])
  | line :: lines => do
      let (next, items) ← rules.process state line
      let (last, more) ← readAll next lines
      return (last, items ++ more)

theorem readAll_append {state : σ} {lines more : List (List α)} :
    rules.readAll state (lines ++ more) = (do
      let (next, items) ← rules.readAll state lines
      let (last, others) ← rules.readAll next more
      return (last, items ++ others)) := by
  induction lines generalizing state with
  | nil =>
      change rules.readAll state more = (do
        let (last, others) ← rules.readAll state more
        return (last, [] ++ others))
      simp
  | cons line lines ih =>
      simp only [List.cons_append, readAll, ih, bind_assoc, pure_bind,
        List.append_assoc]

/-- Some lines and the end. -/
def readLines (state : σ) (lines : List (List α)) : Except ε (List ω) := do
  let (last, items) ← rules.readAll state lines
  let closing ← rules.close last
  return items ++ closing

theorem readLines_nil {state : σ} : rules.readLines state [] = rules.close state := by
  simp only [readLines, readAll, ok_bind, List.nil_append, bind_pure]

theorem readLines_cons {state : σ} {line : List α} {lines : List (List α)} :
    rules.readLines state (line :: lines) = (do
      let (next, items) ← rules.process state line
      let more ← rules.readLines next lines
      return items ++ more) := by
  simp only [readLines, readAll, bind_assoc, pure_bind, List.append_assoc]

variable [DecidableEq α]

/-- At most `count` lines. -/
def drain : Nat → σ → List α → Except ε ((σ × List ω) × List α)
  | 0, state, pending => .ok ((state, []), pending)
  | count + 1, state, pending =>
      match pending.findIdx? (fun a => decide (a = rules.separator)) with
      | none => .ok ((state, []), pending)
      | some position => do
          let (next, items) ← rules.process state (pending.take position)
          let ((last, more), pending) ←
            drain count next (pending.drop (position + 1))
          return ((last, items ++ more), pending)

def drainCompleteLines (state : σ) (pending : List α) :
    Except ε ((σ × List ω) × List α) := do
  let (read, pending) ← rules.drain pending.length state pending
  ensure (!rules.tooLong pending) rules.tooLongError
  return (read, pending)

def push (parser : Parser α σ) (chunk : List α) :
    Except ε (Parser α σ × List ω) := do
  ensure (!parser.finished) rules.pushedError
  rules.reserve (parser.pending.length + chunk.length)
  let ((state, items), pending) ←
    rules.drainCompleteLines parser.state (parser.pending ++ chunk)
  return (⟨state, pending, false⟩, items)

def finish (parser : Parser α σ) : Except ε (Parser α σ × List ω) := do
  ensure (!parser.finished) rules.finishedError
  let ((state, items), pending) ←
    rules.drainCompleteLines parser.state parser.pending
  let (state, last) ←
    if pending = [] then .ok (state, []) else rules.process state pending
  let closing ← rules.close state
  return (⟨state, [], true⟩, items ++ last ++ closing)

/-- All the items of a stream pushed in chunks and finished. -/
def run (parser : Parser α σ) : List (List α) → Except ε (List ω)
  | [] => do
      let (_, items) ← rules.finish parser
      return items
  | chunk :: rest => do
      let (next, items) ← rules.push parser chunk
      let more ← run next rest
      return items ++ more

/-- No push that is made brings the bytes kept beyond a bound. -/
def Fits (bound : Nat) (parser : Parser α σ) : List (List α) → Prop
  | [] => True
  | chunk :: rest =>
      parser.pending.length + chunk.length ≤ bound ∧
        ∀ next items, rules.push parser chunk = .ok (next, items) →
          Fits bound next rest

/-- The stream read whole. -/
def read (state : σ) (stream : List α) : Except ε (List ω) :=
  rules.readLines state (linesOf rules.separator stream)

variable {rules} {state : σ} {lines more : List (List α)} {tail : List α}

theorem drain_joined (count : Nat)
    (hlines : ∀ line ∈ lines, rules.separator ∉ line)
    (htail : rules.separator ∉ tail)
    (hcount : (joined rules.separator lines tail).length ≤ count) :
    rules.drain count state (joined rules.separator lines tail) = (do
      let read ← rules.readAll state lines
      return (read, tail)) := by
  induction lines generalizing count state with
  | nil =>
      have hnone : tail.findIdx? (fun a => decide (a = rules.separator)) = none := by
        rw [List.findIdx?_eq_none_iff]
        intro a ha
        simp only [decide_eq_false_iff_not]
        rintro rfl
        exact htail ha
      cases count with
      | zero => rfl
      | succ count =>
          change (match tail.findIdx? _ with | none => _ | some position => _) = _
          rw [hnone]
          rfl
  | cons line lines ih =>
      obtain ⟨hline, hlines⟩ := List.forall_mem_cons.mp hlines
      have hstep : joined rules.separator (line :: lines) tail =
          line ++ rules.separator :: joined rules.separator lines tail := by
        simp [joined]
      rw [hstep] at hcount ⊢
      cases count with
      | zero => simp at hcount
      | succ count =>
          have hsome : (line ++ rules.separator ::
              joined rules.separator lines tail).findIdx?
                (fun a => decide (a = rules.separator)) = some line.length := by
            rw [List.findIdx?_append]
            have hnone : line.findIdx?
                (fun a => decide (a = rules.separator)) = none := by
              rw [List.findIdx?_eq_none_iff]
              intro a ha
              simp only [decide_eq_false_iff_not]
              rintro rfl
              exact hline ha
            simp [hnone, List.findIdx?_cons]
          have hdrop : (line ++ rules.separator ::
              joined rules.separator lines tail).drop (line.length + 1) =
                joined rules.separator lines tail := by
            rw [← List.drop_drop, List.drop_left]
            rfl
          have hshort : (joined rules.separator lines tail).length ≤ count := by
            simp only [List.length_append, List.length_cons] at hcount
            omega
          simp only [drain, hsome, List.take_left, hdrop, readAll,
            ih count hlines hshort, bind_assoc, pure_bind]

theorem read_joined (hlines : ∀ line ∈ lines, rules.separator ∉ line)
    (rest : List α) :
    rules.read state (joined rules.separator lines rest) = (do
      let (next, items) ← rules.readAll state lines
      let more ← rules.read next rest
      return items ++ more) := by
  simp only [read, readLines, linesOf_joined hlines, readAll_append, bind_assoc,
    pure_bind, List.append_assoc]

theorem drainCompleteLines_joined
    (hlines : ∀ line ∈ lines, rules.separator ∉ line)
    (htail : rules.separator ∉ tail) :
    rules.drainCompleteLines state (joined rules.separator lines tail) = (do
      let read ← rules.readAll state lines
      ensure (!rules.tooLong tail) rules.tooLongError
      return (read, tail)) := by
  simp only [drainCompleteLines, drain_joined _ hlines htail (Nat.le_refl _),
    bind_assoc, pure_bind]

theorem length_le_of_drain {count : Nat} {pending rest : List α}
    {read : σ × List ω} (hdrain : rules.drain count state pending = .ok (read, rest)) :
    rest.length ≤ pending.length := by
  induction count generalizing state pending rest read with
  | zero =>
      cases hdrain
      exact Nat.le_refl _
  | succ count ih =>
      cases hfind : pending.findIdx? (fun a => decide (a = rules.separator)) with
      | none =>
          simp only [drain, hfind, Except.ok.injEq, Prod.mk.injEq] at hdrain
          exact Nat.le_of_eq (congrArg List.length hdrain.2.symm)
      | some position =>
          simp only [drain, hfind, bind_eq_ok_iff, Prod.exists, pure_eq_ok_iff,
            Prod.mk.injEq] at hdrain
          obtain ⟨_, _, _, _, _, _, hrest, _, rfl⟩ := hdrain
          refine Nat.le_trans (ih hrest) ?_
          rw [List.length_drop]
          exact Nat.sub_le _ _

theorem length_le_of_push {parser next : Parser α σ} {chunk : List α}
    {items : List ω} (hpush : rules.push parser chunk = .ok (next, items)) :
    next.pending.length ≤ parser.pending.length + chunk.length := by
  simp only [push, drainCompleteLines, bind_eq_ok_iff, Prod.exists, pure_eq_ok_iff,
    Prod.mk.injEq] at hpush
  obtain ⟨_, _, _, _, _, _, _, ⟨_, _, _, hdrain, _, _, ⟨rfl, rfl⟩, rfl⟩, rfl, _⟩ :=
    hpush
  simpa only [List.length_append] using length_le_of_drain hdrain

/-- A stream within the bound is never too much to keep. -/
theorem fits_of_length_le {bound : Nat} {parser : Parser α σ}
    {chunks : List (List α)}
    (hlength : parser.pending.length + chunks.flatten.length ≤ bound) :
    rules.Fits bound parser chunks := by
  induction chunks generalizing parser with
  | nil => trivial
  | cons chunk chunks ih =>
      rw [List.flatten_cons, List.length_append] at hlength
      refine ⟨by omega, ?_⟩
      intro next items hpush
      have hnext := length_le_of_push hpush
      exact ih (by omega)

variable (rules) in
/-- An unfinished line that is too long is one that no more of it mends. -/
structure Bounded : Prop where
  empty : rules.tooLong [] = false
  rejected : ∀ state line more, rules.tooLong line = true →
    rules.separator ∉ more →
      ∃ error, rules.process state (line ++ more) = .error error

theorem Bounded.read_ne_ok (hbounded : rules.Bounded)
    (htail : rules.separator ∉ tail) (hlong : rules.tooLong tail = true)
    (state : σ) (rest : List α) (items : List ω) :
    rules.read state (tail ++ rest) ≠ .ok items := by
  have hne : tail ≠ [] := by
    rintro rfl
    rw [hbounded.empty] at hlong
    cases hlong
  obtain ⟨more, lines, hmore, hlines⟩ := exists_linesOf htail hne rest
  obtain ⟨error, herror⟩ := hbounded.rejected state tail more hlong hmore
  intro hread
  simp only [read, hlines, readLines_cons, herror, bind_eq_ok_iff, reduceCtorEq,
    false_and, exists_false] at hread

theorem finish_eq_ok_iff (hbounded : rules.Bounded)
    (htail : rules.separator ∉ tail) {items : List ω} :
    (∃ parser, rules.finish ⟨state, tail, false⟩ = .ok (parser, items)) ↔
      rules.read state tail = .ok items := by
  have hdrain : rules.drainCompleteLines state tail = (do
      ensure (!rules.tooLong tail) rules.tooLongError
      return ((state, []), tail)) :=
    drainCompleteLines_joined (List.forall_mem_nil _) htail
  cases hlong : rules.tooLong tail with
  | true =>
      have hread := hbounded.read_ne_ok htail hlong state [] items
      rw [List.append_nil] at hread
      refine iff_of_false ?_ hread
      rintro ⟨parser, hparser⟩
      rw [hlong] at hdrain
      simp only [finish, hdrain] at hparser
      cases hparser
  | false =>
      rw [hlong] at hdrain
      by_cases hempty : tail = []
      · subst hempty
        have hfinish : rules.finish ⟨state, [], false⟩ = (do
            let closing ← rules.close state
            return (⟨state, [], true⟩, closing)) := by
          simp only [finish, hdrain]
          rfl
        have hread : rules.read state [] = rules.close state := by
          rw [read, linesOf_nil, readLines_nil]
        rw [hfinish, hread]
        cases rules.close state with
        | error error => simp
        | ok closing => simp
      · have hfinish : rules.finish ⟨state, tail, false⟩ = (do
            let (next, last) ← rules.process state tail
            let closing ← rules.close next
            return (⟨next, [], true⟩, last ++ closing)) := by
          simp only [finish, hdrain, Bool.not_false, ensure_true, ok_bind, pure_bind,
            if_neg hempty]
          rfl
        have hread : rules.read state tail = (do
            let (next, last) ← rules.process state tail
            let closing ← rules.close next
            return last ++ closing) := by
          simp only [read, linesOf_of_not_mem htail hempty, readLines_cons,
            readLines_nil]
        rw [hfinish, hread]
        cases rules.process state tail with
        | error error => simp [error_bind]
        | ok read =>
            simp only [ok_bind]
            cases rules.close read.1 with
            | error error => simp
            | ok closing => simp

/-- However a stream is cut, its items are those of the stream read whole. -/
theorem run_eq_ok_iff (hbounded : rules.Bounded) {chunks : List (List α)}
    (htail : rules.separator ∉ tail) {bound : Nat}
    (hbound : ∀ length, length ≤ bound → rules.reserve length = .ok ())
    (hfits : rules.Fits bound ⟨state, tail, false⟩ chunks) {items : List ω} :
    rules.run ⟨state, tail, false⟩ chunks = .ok items ↔
      rules.read state (tail ++ chunks.flatten) = .ok items := by
  induction chunks generalizing state tail items with
  | nil =>
      rw [List.flatten_nil, List.append_nil, ← finish_eq_ok_iff hbounded htail]
      simp only [run, bind_eq_ok_iff, Prod.exists, pure_eq_ok_iff]
      constructor
      · rintro ⟨parser, found, hfound, rfl⟩
        exact ⟨parser, hfound⟩
      · rintro ⟨parser, hparser⟩
        exact ⟨parser, items, hparser, rfl⟩
  | cons chunk chunks ih =>
      obtain ⟨hlength, hnext⟩ := hfits
      have hreserve := hbound _ hlength
      obtain ⟨lines, last, hstream, hlast, hlines⟩ :=
        exists_joined rules.separator (tail ++ chunk)
      have hpush : rules.push ⟨state, tail, false⟩ chunk = (do
          let (next, found) ← rules.readAll state lines
          ensure (!rules.tooLong last) rules.tooLongError
          return (⟨next, last, false⟩, found)) := by
        simp only [push, hreserve, Bool.not_false, ensure_true, ok_bind, hstream,
          drainCompleteLines_joined hlines hlast, bind_assoc, pure_bind]
      have hread : rules.read state (tail ++ (chunk :: chunks).flatten) = (do
          let (next, found) ← rules.readAll state lines
          let more ← rules.read next (last ++ chunks.flatten)
          return found ++ more) := by
        rw [List.flatten_cons, ← List.append_assoc, hstream, ← joined_append,
          read_joined hlines]
      rw [hread]
      simp only [run]
      rw [hpush] at hnext ⊢
      cases hall : rules.readAll state lines with
      | error error => simp [error_bind]
      | ok found =>
          obtain ⟨next, found⟩ := found
          rw [hall] at hnext
          simp only [ok_bind] at hnext ⊢
          cases hlong : rules.tooLong last with
          | true =>
              have hfail : ∀ more,
                  rules.read next (last ++ chunks.flatten) ≠ .ok more :=
                hbounded.read_ne_ok hlast hlong _ _
              refine iff_of_false ?_ ?_
              · simp [error_bind]
              · rw [bind_eq_ok_iff]
                rintro ⟨more, hmore, _⟩
                exact hfail more hmore
          | false =>
              rw [hlong] at hnext
              have hrest : ∀ more,
                  rules.run ⟨next, last, false⟩ chunks = .ok more ↔
                    rules.read next (last ++ chunks.flatten) = .ok more :=
                fun _ => ih hlast (hnext _ _ rfl)
              simp only [Bool.not_false, ensure_true, ok_bind, pure_bind,
                bind_eq_ok_iff, hrest]

end Rules

end Peritus.LineStream
