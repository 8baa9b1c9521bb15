import Leapfrog.ErrorGrowth
import Leapfrog.Json.Basic

/-!
# Charts of the error

A chart is a list of drawing commands. It has two panels, one for positions and one for velocities;
each shows one curve for each backend and then, if there are any backends, the tolerance as a dashed
line. Nothing is drawn here: the commands say what to draw.
-/

namespace Leapfrog

/-- The panels, from left to right. -/
inductive Panel where
  | position
  | velocity
  deriving DecidableEq, Repr

/-- The quantity that a panel shows, as its title says it. -/
def Panel.title : Panel → String
  | position => "Position"
  | velocity => "Velocity"

/-- A curve over the numbers of steps. -/
structure Curve where
  values : List Float
  label : String
  dashed : Bool

/-- A drawing command. -/
inductive Drawing where
  /-- A row of two panels of a given size, with the numbers as they were given. -/
  | panels (size : List (Number Float))
  | curve (panel : Panel) (curve : Curve)
  | horizontalLabel (panel : Panel) (text : String)
  | verticalLabel (panel : Panel) (text : String)
  | title (panel : Panel) (text : String)
  | legend (panel : Panel)
  | grid (panel : Panel)
  | tighten
  | display
  | save (file : String) (resolution : Number Float)

namespace Drawing

/-- A number as a document. -/
def number : Number Float → Json
  | .whole n => .whole n
  | .scalar x => .real x

/-- A command as a document: what it acts on, its arguments by position and its named arguments. -/
def call (target : String) (positional : List Json) (named : List (String × Json)) : Json :=
  .list [.text target, .list positional, .record named]

/-- The name of the axes that a panel is drawn on. -/
def axes : Panel → String
  | .position => "ax0"
  | .velocity => "ax1"

/-- The arguments that a curve is drawn with. -/
def curveArguments (c : Curve) : List Json × List (String × Json) :=
  let steps := Json.list ((List.range c.values.length).map fun n : Nat => .whole n)
  ([steps, .list (c.values.map .real), .text (if c.dashed then "k--" else "o-")],
    ("label", .text c.label) :: (if c.dashed then [] else [("ms", .whole 3)]) ++ [("lw", .whole 1)])

/-- The document of a command. -/
def document : Drawing → Json
  | panels size => call "plt.subplots" [.whole 1, .whole 2] [("figsize", .list (size.map number))]
  | curve p c => call (axes p ++ ".plot") (curveArguments c).1 (curveArguments c).2
  | horizontalLabel p text => call (axes p ++ ".set_xlabel") [.text text] []
  | verticalLabel p text => call (axes p ++ ".set_ylabel") [.text text] []
  | title p text => call (axes p ++ ".set_title") [.text text] []
  | legend p => call (axes p ++ ".legend") [] []
  | grid p => call (axes p ++ ".grid") [.bool true] [("alpha", .real 0.3)]
  | tighten => call "plt.tight_layout" [] []
  | display => call "plt.show" [] []
  | save file resolution =>
    call "plt.savefig" [.text file] [("dpi", number resolution), ("bbox_inches", .text "tight")]

end Drawing

namespace Chart

/-- The size of a chart that is not given one. -/
def standardSize : List (Number Float) := [.whole 12, .whole 5]

/-- The resolution of a saved chart that is not given one. -/
def standardResolution : Number Float := .whole 150

/-- The two curves of a backend. -/
def backendCurves (name : String) (growth : ErrorGrowth Float) : List Drawing :=
  [.curve .position ⟨growth.positions, name, false⟩,
   .curve .velocity ⟨growth.velocities, name, false⟩]

/-- The tolerance after zero steps, one step, and so on. -/
def bounds (tolerance : Tolerance Float) (count : Nat) : Except (Fault Float) (List Float) :=
  (List.range count).mapM fun n : Nat => tolerance.bound (.whole n)

/-- What a panel ends with: the tolerance if there is one, the labels, a legend and a grid. -/
def finishPanel (scenario : Scenario Float) (bounds? : Option (List Float)) (p : Panel) :
    List Drawing :=
  (bounds?.map fun values => Drawing.curve p ⟨values, "tolerance", true⟩).toList ++
  [.horizontalLabel p "Steps", .verticalLabel p "Max |actual - analytical|",
   .title p (p.title ++ " Error (dt = " ++ Decimal.general 6 scenario.timestep ++ ")"),
   .legend p, .grid p]

/-- The chart of the growth of the error on some backends. -/
def errorGrowth [Machine] (backends : List (Backend Float)) (scenario : Scenario Float)
    (tolerance : Tolerance Float) (size : List (Number Float)) (shows : Bool) :
    Except (Fault Float) (List Drawing) := do
  let curves ← backends.mapM fun b => do
    let growth ← ErrorGrowth.measure b scenario
    return (backendCurves b.name growth, ← bounds tolerance growth.positions.length)
  let bounds? := curves.getLast?.map Prod.snd
  return .panels size :: curves.flatMap Prod.fst ++
    [.position, .velocity].flatMap (finishPanel scenario bounds?) ++
    .tighten :: (if shows then [.display] else [])

/-- A chart saved to a file, and the line that says so. -/
def save (file : String) (resolution : Number Float) : List Drawing × String :=
  ([.save file resolution], "Saved plot to " ++ file)

/-- Drawing needs an optional part of the installation. -/
def requireDrawing (installed : Bool) : Except (Fault Float) Unit :=
  if installed then .ok () else .error .noDrawing

end Chart

end Leapfrog
