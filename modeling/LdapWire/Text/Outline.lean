import LdapWire.Text.Quoted

/-!
# Outlines

A nested value written over several lines: a group opens on one line, holds each
of its parts on lines of their own, four blanks further in and ended by a comma,
and closes on a line again. An empty group stays on one line.
-/

set_option autoImplicit false

namespace LdapWire.Text

/-- A nested value. -/
inductive Outline where
  | word (text : String)
  /-- A value under a name. -/
  | field (name : String) (value : Outline)
  | group (opening closing : String) (parts : List Outline)

namespace Outline

mutual

/-- The lines of a value, between what stands before it on its first line and
after it on its last. -/
def linesWithin (indent before after : String) : Outline → List String
  | .word text => [indent ++ before ++ text ++ after]
  | .field name value => linesWithin indent (before ++ name ++ ": ") after value
  | .group opening closing [] => [indent ++ before ++ opening ++ closing ++ after]
  | .group opening closing (first :: rest) =>
      (indent ++ before ++ opening)
        :: linesWithin (indent ++ "    ") "" "," first
        ++ linesOfParts (indent ++ "    ") rest
        ++ [indent ++ closing ++ after]

/-- The lines of the parts of a group. -/
def linesOfParts (indent : String) : List Outline → List String
  | [] => []
  | part :: rest => linesWithin indent "" "," part ++ linesOfParts indent rest

end

def lines (outline : Outline) : List String := linesWithin "" "" "" outline

/-- A value with named fields. -/
def record (name : String) (fields : List (String × Outline)) : Outline :=
  .group (name ++ " \x7b") "\x7d" (fields.map fun entry => .field entry.1 entry.2)

/-- A named value around unnamed ones. -/
def wrapped (name : String) (parts : List Outline) : Outline := .group (name ++ "(") ")" parts

def list {α : Type} (item : α → Outline) (items : List α) : Outline :=
  .group "[" "]" (items.map item)

def optional {α : Type} (item : α → Outline) : Option α → Outline
  | none => .word "None"
  | some value => wrapped "Some" [item value]

def number (value : Int) : Outline := .word (toString value)

def truth (value : Bool) : Outline := .word (if value then "true" else "false")

def text (value : String) : Outline := .word (Quoted.quote value)

end Outline

end LdapWire.Text
