import DocQuery.Config.Basic
import DocQuery.Document.Token

/-!
# Reading a configuration

A configuration is an object of settings or an array of them in their order. Left
out settings take their defaults, and unknown members of an object are skipped. A
layout is a string, or an object with the layout's name over null.

A text is refused for the first of three reasons that reading it meets: it ends
too early, it is no JSON, or it does not fit. `advance` takes one token;
whatever is still awaited when the tokens end makes the text end too early.
-/
namespace DocQuery

/-- Why a text is no configuration. -/
inductive ConfigFault where
  | endsEarly | notJson | doesNotFit
  deriving DecidableEq, Repr

def ConfigFault.category : ConfigFault → String
  | .endsEarly => "Eof"
  | .notJson => "Syntax"
  | .doesNotFit => "Data"

namespace Config.Reader

/-- A container of settings or of skipped values. -/
inductive Container where
  | array | object
  deriving DecidableEq, Repr

/-- What a member of the configuration sets. -/
inductive Setting where
  | flattening | logPipelines | unknown
  deriving DecidableEq, Repr

def Setting.ofName (name : String) : Setting :=
  if name = "connective_flattening" then .flattening
  else if name = "log_pipelines" then .logPipelines
  else .unknown

/-- What may follow inside a value that is skipped. -/
inductive Skipping where
  | value | itemOrEnd | nameOrEnd | name | colon | separator
  deriving DecidableEq, Repr

/-- What may follow. -/
inductive Awaiting where
  | config
  | itemOrEnd
  | nameOrEnd
  | name
  | colon (setting : Setting)
  | flattening (within : Container)
  | variantName (within : Container)
  | variantColon (within : Container) (layout : Flattening)
  | variantNull (within : Container) (layout : Flattening)
  | variantEnd (within : Container) (layout : Flattening)
  | logPipelines (within : Container)
  | skip (inner : Skipping) (containers : List Container)
  | separator (within : Container)
  | nothing
  deriving DecidableEq, Repr

/-- The settings read so far, and what may follow. -/
structure Place where
  flattening : Option Flattening := none
  logPipelines : Option Bool := none
  awaiting : Awaiting := .config
  deriving DecidableEq, Repr

/-- The fault of a string that the text ends in. -/
def unfinishedText (loneSurrogate : Bool) : ConfigFault :=
  if loneSurrogate then .notJson else .endsEarly

/-- The fault of a value of the wrong kind, which may itself be faulty. -/
def mismatch : Token → ConfigFault
  | .null | .bool _ | .number (some _) | .text (some _) | .openArray | .openObject => .doesNotFit
  | .unfinished (.text lone) => unfinishedText lone
  | .unfinished _ => .endsEarly
  | _ => .notJson

namespace Place

def setFlattening (p : Place) (within : Container) (layout : Flattening) : Place :=
  { p with flattening := some layout, awaiting := .separator within }

/-- A member of the configuration; a setting is given once. -/
def member (p : Place) (name : String) : Except ConfigFault Place :=
  let setting := Setting.ofName name
  let repeated := match setting with
    | .flattening => p.flattening.isSome
    | .logPipelines => p.logPipelines.isSome
    | .unknown => false
  if repeated then .error .doesNotFit else .ok { p with awaiting := .colon setting }

/-- A token where a member name is awaited. -/
def atName (p : Place) : Token → Except ConfigFault Place
  | .text (some name) => p.member name
  | .unfinished (.text lone) => .error (unfinishedText lone)
  | _ => .error .notJson

def atFlattening (p : Place) (within : Container) : Token → Except ConfigFault Place
  | .text (some name) =>
    match Flattening.ofName? name with
    | some layout => .ok (p.setFlattening within layout)
    | none => .error .doesNotFit
  | .openObject => .ok { p with awaiting := .variantName within }
  | .unfinished (.text lone) => .error (unfinishedText lone)
  | _ => .error .notJson

def atVariantName (p : Place) (within : Container) : Token → Except ConfigFault Place
  | .text (some name) =>
    match Flattening.ofName? name with
    | some layout => .ok { p with awaiting := .variantColon within layout }
    | none => .error .doesNotFit
  | .unfinished (.text lone) => .error (unfinishedText lone)
  | _ => .error .notJson

def skipped (p : Place) : List Container → Place
  | [] => { p with awaiting := .separator .object }
  | containers => { p with awaiting := .skip .separator containers }

def atSkippedValue (p : Place) (containers : List Container) : Token → Except ConfigFault Place
  | .null | .bool _ | .number _ | .text _ => .ok (p.skipped containers)
  | .openArray => .ok { p with awaiting := .skip .itemOrEnd (.array :: containers) }
  | .openObject => .ok { p with awaiting := .skip .nameOrEnd (.object :: containers) }
  | .unfinished .word | .unfinished (.text _) => .error .endsEarly
  | _ => .error .notJson

def atSkippedName (p : Place) (containers : List Container) : Token → Except ConfigFault Place
  | .text _ => .ok { p with awaiting := .skip .colon containers }
  | .unfinished (.text _) => .error .endsEarly
  | _ => .error .notJson

/-- A token inside a skipped value. -/
def atSkipped (p : Place) (inner : Skipping) (containers : List Container) (token : Token) :
    Except ConfigFault Place :=
  match inner, containers, token with
  | .value, _, token => p.atSkippedValue containers token
  | .itemOrEnd, _ :: outer, .closeArray => .ok (p.skipped outer)
  | .itemOrEnd, _, token => p.atSkippedValue containers token
  | .nameOrEnd, _ :: outer, .closeObject => .ok (p.skipped outer)
  | .nameOrEnd, _, token => p.atSkippedName containers token
  | .name, _, token => p.atSkippedName containers token
  | .colon, _, .colon => .ok { p with awaiting := .skip .value containers }
  | .separator, .array :: _, .comma => .ok { p with awaiting := .skip .value containers }
  | .separator, .object :: _, .comma => .ok { p with awaiting := .skip .name containers }
  | .separator, .array :: outer, .closeArray => .ok (p.skipped outer)
  | .separator, .object :: outer, .closeObject => .ok (p.skipped outer)
  | _, _, _ => .error .notJson

/-- A token after a setting. In an array the first item is the layout and the
second, the last, is the other setting. -/
def atSeparator (p : Place) : Container → Token → Except ConfigFault Place
  | .object, .comma => .ok { p with awaiting := .name }
  | .object, .closeObject => .ok { p with awaiting := .nothing }
  | .array, .comma =>
    if p.logPipelines.isSome then .error .notJson
    else .ok { p with awaiting := .logPipelines .array }
  | .array, .closeArray => .ok { p with awaiting := .nothing }
  | _, _ => .error .notJson

/-- The effect of a token, or the fault it makes. -/
def advance (p : Place) (token : Token) : Except ConfigFault Place :=
  match p.awaiting, token with
  | .config, .openObject => .ok { p with awaiting := .nameOrEnd }
  | .config, .openArray => .ok { p with awaiting := .itemOrEnd }
  | .config, token => .error (mismatch token)
  | .itemOrEnd, .closeArray => .ok { p with awaiting := .nothing }
  | .itemOrEnd, token => p.atFlattening .array token
  | .nameOrEnd, .closeObject => .ok { p with awaiting := .nothing }
  | .nameOrEnd, token => p.atName token
  | .name, token => p.atName token
  | .colon .flattening, .colon => .ok { p with awaiting := .flattening .object }
  | .colon .logPipelines, .colon => .ok { p with awaiting := .logPipelines .object }
  | .colon .unknown, .colon => .ok { p with awaiting := .skip .value [] }
  | .flattening within, token => p.atFlattening within token
  | .variantName within, token => p.atVariantName within token
  | .variantColon within layout, .colon => .ok { p with awaiting := .variantNull within layout }
  | .variantNull within layout, .null => .ok { p with awaiting := .variantEnd within layout }
  | .variantNull _ _, token => .error (mismatch token)
  | .variantEnd within layout, .closeObject => .ok (p.setFlattening within layout)
  | .logPipelines within, .bool value =>
    .ok { p with logPipelines := some value, awaiting := .separator within }
  | .logPipelines _, token => .error (mismatch token)
  | .skip inner containers, token => p.atSkipped inner containers token
  | .separator within, token => p.atSeparator within token
  | _, _ => .error .notJson

def result (p : Place) : Except ConfigFault Config :=
  if p.awaiting = .nothing then
    .ok { flattening := p.flattening.getD .flatten, logPipelines := p.logPipelines.getD false }
  else .error .endsEarly

end Place
end Config.Reader

/-- The configuration that a text writes. -/
def Config.parse (text : String) : Except ConfigFault Config := do
  (← (Token.ofText text).foldlM Reader.Place.advance {}).result

end DocQuery
