import AsciiMath.Text.Bytes

/-!
# A cursor in a template

The places of a template can be filled in one pass over its bytes. The cursor stands before the next
dollar sign, looks at the one byte behind it, and goes on behind the place that begins there or
behind the dollar sign alone. The template is cut wherever the cursor stops, which has to be where
a character ends.
-/

namespace AsciiMath

/-- What has been written for the front of a template, and the template behind the cursor. -/
structure PlaceCursor where
  written : String
  rest : List Char
deriving DecidableEq, Repr

namespace PlaceCursor

/-- How many bytes there are before the first dollar sign. -/
def dollar? : List Char → Option Nat
  | [] => none
  | c :: text => if c = '$' then some 0 else (dollar? text).map (c.utf8Size + ·)

def byteAt? (text : List Char) (offset : Nat) : Option UInt8 :=
  (text.flatMap String.utf8EncodeChar)[offset]?

/-- The argument whose place the byte after a dollar sign names. -/
def argument? (arguments : List String) (byte : Option UInt8) : Option String :=
  if byte = some '1'.toUInt8 then arguments[0]?
  else if byte = some '2'.toUInt8 then arguments[1]?
  else none

/-- The cursor behind the dollar sign at an offset, or behind the place that begins with it; none if
the template is cut inside a character. -/
def advance? (arguments : List String) (offset : Nat) (cursor : PlaceCursor) :
    Option PlaceCursor := do
  let (front, _) ← Text.splitBytes? offset cursor.rest
  match argument? arguments (byteAt? cursor.rest (offset + 1)) with
  | some argument =>
    let (_, rest) ← Text.splitBytes? (offset + 2) cursor.rest
    return ⟨cursor.written ++ String.ofList front ++ argument, rest⟩
  | none =>
    let (_, rest) ← Text.splitBytes? (offset + 1) cursor.rest
    return ⟨cursor.written ++ String.ofList front ++ "$", rest⟩

theorem length_lt_of_splitBytes? {count : Nat} {text front back : List Char} (pos : 0 < count)
    (h : Text.splitBytes? count text = some (front, back)) : back.length < text.length := by
  obtain ⟨rfl, hfront⟩ := Text.splitBytes?_eq_some h
  cases front with
  | nil => exact absurd hfront (Nat.ne_of_lt pos)
  | cons c front =>
    rw [List.length_append, List.length_cons]
    omega

theorem length_advance? {arguments : List String} {offset : Nat} {cursor next : PlaceCursor}
    (h : advance? arguments offset cursor = some next) :
    next.rest.length < cursor.rest.length := by
  obtain ⟨⟨front, _⟩, -, h⟩ := Option.bind_eq_some_iff.1 h
  dsimp only at h
  split at h
  all_goals
    obtain ⟨⟨passed, rest⟩, hcut, h⟩ := Option.bind_eq_some_iff.1 h
    obtain rfl := Option.some.inj h
    exact length_lt_of_splitBytes? (Nat.succ_pos _) hcut

/-- All that is written once no dollar sign is left. -/
def finish? (arguments : List String) (cursor : PlaceCursor) : Option String :=
  match dollar? cursor.rest with
  | none => some (cursor.written ++ String.ofList cursor.rest)
  | some offset =>
    match _h : advance? arguments offset cursor with
    | none => none
    | some next => finish? arguments next
termination_by cursor.rest.length
decreasing_by exact length_advance? ‹_›

end PlaceCursor

end AsciiMath
