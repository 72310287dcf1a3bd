import AsciiMath.Keyword.Trie

/-!
# Configuring an engine

What an engine can be asked to do, and how this is written down: as a record of named settings, each
of which may be missing. A setting that is there has to have the form that belongs to it, and names
that are not known are passed over.
-/

namespace AsciiMath

structure Config where
  displayMode : Bool
  /-- Keywords with their TeX, beside the standard symbols. -/
  extraSymbols : List (String × String)
  /-- Patterns with their replacements, applied to the input in order. -/
  rules : List (String × String)
deriving DecidableEq, Repr

inductive ConfigError where
  | alphabet (cause : AlphabetError)
  | invalidRule (index : Nat)
deriving DecidableEq, Repr

def ConfigError.message : ConfigError → String
  | .alphabet cause => cause.message
  | .invalidRule index => "preprocessing rule " ++ index.repr ++ " has an invalid pattern"

/-- A written value. Numbers and nothing are told apart from the rest, but no setting is one. -/
inductive Setting where
  | nothing
  | number
  | switch (on : Bool)
  | text (text : String)
  | list (members : List Setting)
  | record (fields : List (String × Setting))
deriving Repr, Inhabited

namespace Setting

def toSwitch? : Setting → Option Bool
  | .switch on => some on
  | _ => none

def toPair? : Setting → Option (String × String)
  | .list [.text first, .text second] => some (first, second)
  | _ => none

def toPairs? : Setting → Option (List (String × String))
  | .list members => members.mapM toPair?
  | _ => none

def ofPair (pair : String × String) : Setting := .list [.text pair.1, .text pair.2]

end Setting

namespace Config

def default : Config := ⟨false, [], []⟩

/-- The setting of a name, or what holds without it; none if it has the wrong form. -/
def setting? {α : Type} (fields : List (String × Setting)) (name : String) (without : α)
    (read? : Setting → Option α) : Option α :=
  match fields.lookup name with
  | some setting => read? setting
  | none => some without

def ofSetting? : Setting → Option Config
  | .record fields => do
    let displayMode ← setting? fields "display-mode" default.displayMode Setting.toSwitch?
    let extraSymbols ← setting? fields "extra-symbols" default.extraSymbols Setting.toPairs?
    let rules ← setting? fields "preprocessing-rules" default.rules Setting.toPairs?
    return ⟨displayMode, extraSymbols, rules⟩
  | _ => none

def toSetting (config : Config) : Setting :=
  .record
    [("display-mode", .switch config.displayMode),
      ("extra-symbols", .list (config.extraSymbols.map Setting.ofPair)),
      ("preprocessing-rules", .list (config.rules.map Setting.ofPair))]

end Config

end AsciiMath
