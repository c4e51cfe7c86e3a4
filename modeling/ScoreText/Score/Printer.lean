import ScoreText.Score.Basic

/-!
The notation of a score: declarations on lines of their own, then the measures with bar lines
between them.
-/

namespace ScoreText

def Element.print : Element → String
  | .note pitch duration _ => pitch.display ++ " " ++ String.singleton duration.char
  | .rest duration _ => "r " ++ String.singleton duration.char

def Measure.print (m : Measure) : String := " ".intercalate (m.elements.map Element.print)

def Score.print (s : Score) : String :=
  (match s.clef with
    | some c => "clef: " ++ c.type.name ++ "\n"
    | none => "") ++
  (match s.time with
    | some t => "time: " ++ t.display ++ "\n"
    | none => "") ++
  " | ".intercalate (s.measures.map Measure.print)

end ScoreText
