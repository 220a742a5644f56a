import HandleProtocol.Log.Record

/-!
Which records are let through.

A filter is a list of directives, each for the records whose target begins with
the directive's.  The directive with the longest such target decides, the later
of two that are equally long, and a record that no directive is for is held back.

The text of a filter is its directives with commas between them.  A directive is
a level, for all records; or a target, an equals sign and a level; or a target
alone, which lets through everything from there.
-/

namespace HandleProtocol.Log

/-- The least important level that is let through; `none` lets nothing through. -/
abbrev Threshold := Option Level

def Threshold.ofName? (name : String) : Option Threshold :=
  match name.toLower with
  | "off" => some none
  | "error" => some (some .error)
  | "warn" => some (some .warn)
  | "info" => some (some .info)
  | "debug" => some (some .debug)
  | "trace" => some (some .trace)
  | _ => none

def Threshold.admits (threshold : Threshold) (level : Level) : Bool :=
  match threshold with
  | none => false
  | some least => level.rank ≤ least.rank

structure Directive where
  target : String
  threshold : Threshold
  deriving DecidableEq, Repr

namespace Directive

def appliesTo (directive : Directive) (record : Record) : Bool :=
  directive.target.toList.isPrefixOf record.target.toList

/-- Read a directive.  After an equals sign, no level at all means every level. -/
def parse? (text : String) : Option Directive :=
  match text.splitOn "=" with
  | [word] =>
      match Threshold.ofName? word with
      | some threshold => some ⟨"", threshold⟩
      | none => some ⟨word, some .trace⟩
  | [target, level] =>
      if target = "" then none
      else if level = "" then some ⟨target, some .trace⟩
      else (Threshold.ofName? level).map fun threshold => ⟨target, threshold⟩
  | _ => none

end Directive

structure Filter where
  directives : List Directive
  deriving DecidableEq, Repr

namespace Filter

/-- The filter that is used where none is given: all records from `info` up. -/
def standard : Filter := ⟨[⟨"", some .info⟩]⟩

/-- Read a filter; empty directives are passed over. -/
def parse? (text : String) : Option Filter :=
  ((text.splitOn ",").filter (· ≠ "")).mapM Directive.parse? |>.map Filter.mk

def ofText (text : Option String) : Filter :=
  (text.bind parse?).getD standard

def deciding? (filter : Filter) (record : Record) : Option Directive :=
  (filter.directives.filter fun directive => directive.appliesTo record).foldl
    (fun best directive =>
      match best with
      | none => some directive
      | some longest =>
          if longest.target.length ≤ directive.target.length then some directive
          else some longest)
    none

def passes (filter : Filter) (record : Record) : Bool :=
  match filter.deciding? record with
  | none => false
  | some directive => directive.threshold.admits record.level

end Filter

end HandleProtocol.Log
