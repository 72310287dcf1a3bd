import Std.Data.HashSet
import AsciiMath.Pattern.Expr

/-!
# Pattern programs

An expression becomes a program of numbered steps. A step takes one character, tests the place,
notes where a group begins or ends, or goes on in one of two ways, the first of which is preferred.
The program is searched in the order of preference, and no step is tried twice at one place: a
second try could only fail as the first one did, or go round in a circle.
-/

namespace AsciiMath.Pattern

inductive Step where
  | take (set : CharSet) (next : Nat)
  | test (look : Look) (next : Nat)
  | note (slot : Nat) (next : Nat)
  | fork (preferred other : Nat)
  | accept
deriving Repr

abbrev Program := Array Step

namespace Program

/-- The program with one more step, and the number of that step. -/
def add (program : Program) (step : Step) : Nat × Program := (program.size, program.push step)

def addFork (program : Program) (lazy : Bool) (body next : Nat) : Nat × Program :=
  program.add (if lazy then .fork next body else .fork body next)

/-- The body again and again until it gives way: the first step of the body, and the fork behind
it. -/
def addLoop (program : Program) (lazy : Bool) (next : Nat)
    (body : Nat → Program → Nat × Program) : Nat × Nat × Program :=
  let (fork, program) := program.add .accept
  let (first, program) := body fork program
  (first, fork, program.setIfInBounds fork (if lazy then .fork next first else .fork first next))

/-- Copies of the body one before the other, the last of which goes on with the given step. -/
def addCopies (body : Nat → Program → Nat × Program) : Nat → Nat → Program → Nat × Program
  | 0, next, program => (next, program)
  | count + 1, next, program =>
    let (first, program) := body next program
    addCopies body count first program

/-- Copies of the body each of which may be left out together with the ones behind it. -/
def addOptional (lazy : Bool) (exit : Nat) (body : Nat → Program → Nat × Program) :
    Nat → Nat → Program → Nat × Program
  | 0, next, program => (next, program)
  | count + 1, next, program =>
    let (first, program) := body next program
    let (fork, program) := program.addFork lazy first exit
    addOptional lazy exit body count fork program

/-- The repetitions of a body before a step. A body that can be empty is repeated by a loop that
begins with the body, so that what it prefers is tried in order. -/
def addRepeated (lazy mayBeEmpty : Bool) (least : Nat) (most : Option Nat) (next : Nat)
    (body : Nat → Program → Nat × Program) (program : Program) : Nat × Program :=
  match most with
  | some most =>
    let (first, program) := addOptional lazy next body (most - least) next program
    addCopies body least first program
  | none =>
    let (first, fork, program) := program.addLoop lazy next body
    match least with
    | 0 => if mayBeEmpty then program.addFork lazy first next else (fork, program)
    | more + 1 => addCopies body more first program

end Program

/-- The steps of an expression before the given step, and the number of the first of them. A body
that matches nothing but an empty text is repeated at most once. -/
def Expr.compile : Expr → Nat → Program → Nat × Program
  | .empty, next, program => (next, program)
  | .one set, next, program => program.add (.take set next)
  | .look condition, next, program => program.add (.test condition next)
  | .sequence first second, next, program =>
    let (middle, program) := second.compile next program
    first.compile middle program
  | .choice first second, next, program =>
    let (preferred, program) := first.compile next program
    let (other, program) := second.compile next program
    program.add (.fork preferred other)
  | .group none body, next, program => body.compile next program
  | .group (some number) body, next, program =>
    let (close, program) := program.add (.note (2 * number + 1) next)
    let (first, program) := body.compile close program
    program.add (.note (2 * number) first)
  | .repeated body least most lazy, next, program =>
    let once := body.isBlankOnly
    let least := if once then min least 1 else least
    let most := if once then some (min (most.getD 1) 1) else most
    Program.addRepeated lazy (body.leastLength == 0) least most next body.compile program

/-- Where groups begin and end, by the numbers of their slots. -/
abbrev Notes := List (Nat × Nat)

structure Thread where
  step : Nat
  place : Nat
  notes : Notes

/-- Where a step leads at a place, the preferred way first; none if it accepts. -/
def Step.threads (text : Array Char) (thread : Thread) : Step → Option (List Thread)
  | .take set next =>
    some <|
      if text[thread.place]?.any set.contains then
        [⟨next, thread.place + 1, thread.notes⟩]
      else
        []
  | .test look next =>
    let before := if thread.place = 0 then none else text[thread.place - 1]?
    some (if look.holds before text[thread.place]? then [{ thread with step := next }] else [])
  | .note slot next => some [⟨next, thread.place, (slot, thread.place) :: thread.notes⟩]
  | .fork preferred other =>
    some [{ thread with step := preferred }, { thread with step := other }]
  | .accept => none

namespace Program

/-- The notes of the first thread that is accepted. -/
def run (program : Program) (text : Array Char) :
    Nat → Std.HashSet Nat → List Thread → Option Notes
  | 0, _, _ => none
  | _ + 1, _, [] => none
  | fuel + 1, tried, thread :: threads =>
    let mark := thread.step * (text.size + 1) + thread.place
    if tried.contains mark then
      run program text fuel tried threads
    else
      match program[thread.step]? with
      | none => run program text fuel tried threads
      | some step =>
        match step.threads text thread with
        | none => some ((1, thread.place) :: thread.notes)
        | some more => run program text fuel (tried.insert mark) (more ++ threads)

/-- Each step is tried at most once at each place, and puts at most two threads in its stead. -/
def matchAt? (program : Program) (first : Nat) (text : Array Char) (place : Nat) : Option Notes :=
  run program text (2 * program.size * (text.size + 1) + 2) {} [⟨first, place, [(0, place)]⟩]

/-- The match that begins first, no earlier than the given place. -/
def search? (program : Program) (first : Nat) (text : Array Char) : Nat → Nat → Option Notes
  | 0, place => matchAt? program first text place
  | more + 1, place =>
    match matchAt? program first text place with
    | some notes => some notes
    | none => search? program first text more (place + 1)

end Program

end AsciiMath.Pattern
