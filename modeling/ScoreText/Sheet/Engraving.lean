import ScoreText.Fault
import ScoreText.Rounding
import ScoreText.Settings
import ScoreText.Text.Utf8

/-!
Engraving: an engraver is given its options and a MusicXML text, and is asked for one SVG sheet
after the other. An engraver that knows only the short form of the request is asked again in that
form. An engraver may break down at any call.
-/

namespace ScoreText

/-- What an engraver is told about the sheets; lengths are in tenths of a millimetre. -/
structure EngravingOptions where
  pageWidth : Nat := 2100
  pageHeight : Nat := 2970
  pageMarginTop : Nat := 100
  pageMarginBottom : Nat := 100
  pageMarginLeft : Nat := 100
  pageMarginRight : Nat := 100
  scale : Nat
  adjustPageHeight : Bool := true
  deriving DecidableEq, Repr

/-- What an engraver is asked to do, in this order. -/
inductive EngraverCall
  | start
  | setOptions
  | load
  | countPages
  | page (n : Nat)
  deriving DecidableEq, Repr

structure Breakdown where
  call : EngraverCall
  fault : LibraryFault
  deriving DecidableEq, Repr

/-- An engraver: the sheets it makes of a MusicXML text, whether it takes the text, whether it knows
only the short form of a request, and whether it breaks down. -/
structure Engraver where
  pages : String → List String
  loads : String → Bool := fun _ => true
  shortFormOnly : Bool := false
  breakdown : Option Breakdown := none

/-- A request for a sheet; the short form says nothing about an XML declaration. -/
structure PageRequest where
  page : Nat
  xmlDeclaration : Option Bool
  deriving DecidableEq, Repr

inductive EngravingFault
  | scaleTooLarge
  | undecodable (fault : Text.Utf8.Fault)
  | notLoaded
  | brokenDown (fault : LibraryFault)
  deriving DecidableEq, Repr

def EngravingFault.message : EngravingFault → String
  | .scaleTooLarge => "integer division result too large for a float"
  | .undecodable fault => fault.message
  | .notLoaded => "verovio could not load the MusicXML data."
  | .brokenDown fault => fault.message

/-- The zoom in percent: 40 for a font of 14 points, in proportion for others, and at least
10. -/
def Settings.scale? (s : Settings) : Option Nat :=
  (roundQuotient? (s.fontSize * 40) 14).map (max 10)

def Settings.engravingOptions? (s : Settings) : Option EngravingOptions :=
  s.scale?.map fun scale => { scale := scale }

/-- What passed between the program and an engraver: the options it took, the number of pages it
told, the requests it answered, and the sheets or what went wrong. -/
structure Engraving where
  options : Option EngravingOptions
  pageCount : Option Nat
  requests : List PageRequest
  outcome : Except EngravingFault (List String)

namespace Engraver

def request (e : Engraver) (page : Nat) : PageRequest :=
  ⟨page, if e.shortFormOnly then none else some false⟩

def failure? (e : Engraver) (call : EngraverCall) : Option EngravingFault :=
  (e.breakdown.filter (·.call = call)).map fun b => .brokenDown b.fault

/-- Fails at a call at which the engraver breaks down. -/
def attempt (e : Engraver) (call : EngraverCall) : Except EngravingFault Unit :=
  match e.failure? call with
  | some fault => .error fault
  | none => .ok ()

section

variable (e : Engraver) (xml : String)

def pageNumbers : List Nat := List.range' 1 (e.pages xml).length

def sheets : Except EngravingFault (List String) :=
  match (e.pageNumbers xml).findSome? fun n => e.failure? (.page n) with
  | some fault => .error fault
  | none => .ok (e.pages xml)

/-- The requests that are answered. -/
def requests : List PageRequest :=
  ((e.pageNumbers xml).takeWhile fun n => (e.failure? (.page n)).isNone).map e.request

def load : Except EngravingFault Nat := do
  e.attempt .load
  if e.loads xml then
    e.attempt .countPages
    return (e.pages xml).length
  else .error .notLoaded

def engraveText (options : EngravingOptions) : Engraving :=
  match e.load xml with
  | .ok count => ⟨some options, some count, e.requests xml, e.sheets xml⟩
  | .error fault => ⟨some options, none, [], .error fault⟩

end

/-- Starts an engraver and hands it its options. -/
def prepare (e : Engraver) (settings : Settings) : Except EngravingFault EngravingOptions := do
  e.attempt .start
  match settings.engravingOptions? with
  | none => .error .scaleTooLarge
  | some options =>
    e.attempt .setOptions
    return options

/-- Engraves a MusicXML text, given by its bytes. They are read once the options are set. -/
def engrave (e : Engraver) (settings : Settings) (xml : List UInt8) : Engraving :=
  match e.prepare settings, Text.Utf8.decode xml with
  | .error fault, _ => ⟨none, none, [], .error fault⟩
  | .ok options, .error fault => ⟨some options, none, [], .error (.undecodable fault)⟩
  | .ok options, .ok text => e.engraveText (String.ofList text) options

end Engraver

end ScoreText
