import ProbeCycle.Catalog.Basic

namespace ProbeCycle.Catalog

open Setting

/-- A length in millimetres, entered in tenths. -/
def length (label description : String) (default : Binary64) (letter : Char) (icon : String)
    (lower upper : Binary64) : Descriptor :=
  { ((Descriptor.number label description default).withRange lower upper).withStep 0.1 with
    parameter := some letter
    icon := some icon
    unit := some "mm" }

/-- A setting that the single-point mode does without. -/
def unlessQuick (d : Descriptor) : Descriptor :=
  d.withCondition "quick" (.boolean false)

def quick (default : Bool) : Descriptor :=
  { Descriptor.boolean "Quick Mode"
      "If enabled, only a single probe point will be performed on each surface. Angle calculations will not be performed. Turn this off for more accurate probe results."
      default with
    parameter := some 'Q'
    icon := some "mdi-clock-fast" }

def overtravel : Descriptor :=
  length "Overtravel"
    "The distance the probe will travel past the expected edge of the feature or workpiece, to account for inaccuracies in the starting position or feature dimensions."
    2 'O' "mdi-unfold-less-vertical" 1 20

def surfaceClearance : Descriptor :=
  length "Surface Clearance"
    "The distance the probe will move inwards towards the expected surface of the feature or workpiece, to account for inaccuracies in the starting position or work holding."
    10 'T' "mdi-unfold-more-vertical" 2 50

def cornerClearance : Descriptor :=
  length "Corner Clearance"
    "The distance the probe will move inwards from the expected corner of the feature or workpiece, to account for inaccuracies in the starting position or corner radiuses."
    5 'C' "mdi-unfold-more-horizontal" 1 50

def edgeClearance : Descriptor :=
  unlessQuick <| length "Edge Clearance"
    "The distance the probe will move inwards from the expected edge of the feature or workpiece, to account for inaccuracies in the starting position."
    5 'C' "mdi-unfold-more-horizontal" 1 50

/-- An offset for `Z` turns the depth, which counts downwards, into a coordinate. -/
def depth : Descriptor :=
  { length "Depth (from starting position)"
      "How far to move down from the starting position before probing."
      5 'Z' "mdi-arrow-down-bold-circle" 0 20 with
    multiplier := -1 }

def depthFromTop : Descriptor :=
  length "Depth (from top surface)"
    "How far to move down from the top surface of the corner before probing the sides."
    5 'P' "mdi-arrow-down-bold-circle" 0 20

def diameter (description : String) : Descriptor :=
  length "Diameter" description 10 'H' "mdi-diameter-variant" 1 100

def rectangleWidth (feature : String) : Descriptor :=
  length "Width (on X axis)"
    s!"The approximate width of the {feature} (measured parallel to the X axis)."
    10 'H' "mdi-unfold-more-vertical" 0 300

def rectangleLength (feature : String) : Descriptor :=
  length "Length (on Y axis)"
    s!"The approximate length of the {feature} (measured parallel to the Y axis)."
    10 'I' "mdi-unfold-more-horizontal" 0 300

def axisWidth (description : String) : Descriptor :=
  length "Width" description 10 'H' "mdi-unfold-less-vertical" 0 300

def axisLength (feature : String) : Descriptor :=
  unlessQuick <| length "Length"
    s!"The approximate length of the {feature} surfaces. With quick mode disabled, this is used to calculate the probe locations on the {feature} surfaces."
    10 'I' "mdi-unfold-less-horizontal" 0 300

def cornerWidth : Descriptor :=
  unlessQuick <| length "Width" "The approximate length of the X surface of the corner."
    10 'H' "mdi-unfold-more-vertical" 0 300

def cornerLength : Descriptor :=
  unlessQuick <| length "Length" "The approximate length of the Y surface of the corner."
    10 'I' "mdi-unfold-more-horizontal" 0 300

def axis (description : String) : Descriptor :=
  { Descriptor.choice "Axis" description 0
      [⟨"mdi-swap-horizontal", "X"⟩, ⟨"mdi-swap-vertical", "Y"⟩] with
    parameter := some 'N'
    icon := some "mdi-axis-arrow" }

def corner : Descriptor :=
  { Descriptor.choice "Corner" "The corner of the workpiece." 0
      [⟨"mdi-arrow-bottom-left-bold-box", "Front Left"⟩,
        ⟨"mdi-arrow-bottom-right-bold-box", "Front Right"⟩,
        ⟨"mdi-arrow-top-right-bold-box", "Back Right"⟩,
        ⟨"mdi-arrow-top-left-bold-box", "Back Left"⟩] with
    parameter := some 'N'
    icon := some "mdi-rounded-corner" }

def surface : Descriptor :=
  { Descriptor.choice "Surface" "The surface to probe towards." 0
      [⟨"mdi-arrow-left-bold", "Left"⟩, ⟨"mdi-arrow-right-bold", "Right"⟩,
        ⟨"mdi-arrow-down-bold", "Front"⟩, ⟨"mdi-arrow-up-bold", "Back"⟩,
        ⟨"mdi-circle-box", "Top"⟩] with
    parameter := some 'H'
    icon := some "mdi-square-opacity" }

def distance : Descriptor :=
  length "Distance" "The approximate distance to move towards the target surface."
    10 'I' "mdi-ruler" 1 100

def bore : Operation where
  key := "bore"
  name := "Bore"
  icon := "mdi-circle-outline"
  description := "Finds the center of a circular bore (negative feature) by probing its inner diameter."
  code := 6500.1
  settings := .ofList [
    ("diameter", diameter "The approximate diameter of the bore."),
    ("depth", depth),
    ("overtravel", overtravel)]

def boss : Operation where
  key := "boss"
  name := "Boss"
  icon := "mdi-circle"
  description := "Finds the center of a circular boss (positive feature or workpiece) by probing its outer diameter."
  code := 6501.1
  settings := .ofList [
    ("diameter", diameter "The approximate diameter of the boss."),
    ("depth", depth),
    ("surface_clearance", surfaceClearance),
    ("overtravel", overtravel)]

def rectangleSettings (feature : String) : Table Descriptor :=
  .ofList [
    ("width", rectangleWidth feature),
    ("length", rectangleLength feature),
    ("depth", depth),
    ("surface_clearance", surfaceClearance),
    ("corner_clearance", cornerClearance),
    ("overtravel", overtravel)]

def rectanglePocket : Operation where
  key := "rectangle_pocket"
  name := "Rectangle Pocket"
  icon := "mdi-rectangle-outline"
  description := "Finds the center of a rectangular pocket (negative feature) by probing its inner surfaces."
  code := 6502.1
  settings := rectangleSettings "pocket"

def rectangleBlock : Operation where
  key := "rectangle_block"
  name := "Rectangle Block"
  icon := "mdi-rectangle"
  description := "Finds the center of a rectangular block (positive feature or workpiece) by probing its outer surfaces."
  code := 6503.1
  settings := rectangleSettings "block"

def axisSettings (axisDescription widthDescription feature : String) : Table Descriptor :=
  .ofList [
    ("quick", quick true),
    ("axis", axis axisDescription),
    ("width", axisWidth widthDescription),
    ("length", axisLength feature),
    ("depth", depth),
    ("surface_clearance", surfaceClearance),
    ("edge_clearance", edgeClearance),
    ("overtravel", overtravel)]

def web : Operation where
  key := "web"
  name := "Web"
  icon := "mdi-math-norm-box"
  description := "Finds the center of a web (positive rectangular feature) on one axis by probing its outer surfaces."
  code := 6504.1
  settings := axisSettings "The axis of the web."
    "The approximate width of the web. This is how far outwards along the probed axis we will move before probing back towards the web surfaces."
    "web"

def pocket : Operation where
  key := "pocket"
  name := "Pocket"
  icon := "mdi-math-norm"
  description := "Finds the center of a pocket (negative rectangular feature) on one axis by probing its inner surfaces."
  code := 6505.1
  settings := axisSettings "The axis of the pocket."
    "The approximate width of the pocket. This defines how far outwards we expect the probed surfaces to be from the start point, minus the clearance distance."
    "pocket"

def cornerSettings (quickDefault : Bool) (depth : Descriptor) : Table Descriptor :=
  .ofList [
    ("quick", quick quickDefault),
    ("corner", corner),
    ("width", cornerWidth),
    ("length", cornerLength),
    ("depth", depth),
    ("surface_clearance", surfaceClearance),
    ("corner_clearance", cornerClearance),
    ("overtravel", overtravel)]

/-- An outside corner is probed at several points of each surface unless asked otherwise. -/
def outsideCorner : Operation where
  key := "outside_corner"
  name := "Outside Corner"
  icon := "mdi-square-rounded-badge"
  description := "Finds the corner of a positive feature or workpiece by probing its outer surfaces."
  code := 6508.1
  settings := cornerSettings false depth

def viseCorner : Operation where
  key := "vise_corner"
  name := "Vise Corner"
  icon := "mdi-cube"
  description := "Finds the top and corner of a positive feature or workpiece by probing its top and outer surfaces."
  code := 6520.1
  settings := cornerSettings true depthFromTop

def singleSurface : Operation where
  key := "single_surface"
  name := "Single Surface"
  icon := "mdi-square-opacity"
  description := "Finds the co-ordinate of a surface at one point."
  code := 6510.1
  settings := .ofList [
    ("surface", surface),
    ("distance", distance),
    ("overtravel", overtravel)]

def standard : Catalog :=
  .ofList [bore, boss, rectanglePocket, rectangleBlock, web, pocket, outsideCorner, viseCorner,
    singleSurface]

end ProbeCycle.Catalog

namespace ProbeCycle

/-- The operation of the standard catalog under a key. -/
def lookup (key : String) : Except ProbeError Operation :=
  Catalog.standard.lookup key

end ProbeCycle
