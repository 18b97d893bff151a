import BandedReport.Color
import BandedReport.Coordinate

/-!
# Controls

The things placed on the design surface. A control is a box with a frame, a border and a content,
or a straight line between two endpoints; it has an identifier, a place in the stacking order, and
a flag that tells whether it prints.
-/

namespace BandedReport

/-- Space between the border of a box and its content, on every side. -/
def boxPadding : Nat := 2

/-- The least width and height of a box. -/
def minControlSize : Nat := 20

/-- The lowest place in the stacking order. -/
def minZIndex : Int := 1

/-- Position and size of a box, without its border and padding. -/
structure Frame (κ : Type) where
  x : κ
  y : κ
  width : κ
  height : κ
deriving BEq

/-- The stroke of lines and borders. -/
inductive LineStyle where
  | solid | dashed | dotted
deriving DecidableEq

/-- The border of a box. -/
structure Border (κ : Type) where
  /-- The width on every side; zero for no border. -/
  width : κ
  color : Option Color
  style : LineStyle
deriving BEq

/-- How a value is formatted. -/
inductive FormatType where
  | general | number | currency | percent | date | chineseUpper
deriving DecidableEq

/-- The format of a field or a calculated value. -/
structure ValueFormat where
  formatType : FormatType
  decimalPlaces : Option Nat
deriving DecidableEq

/-- Values as they are. -/
def ValueFormat.general : ValueFormat := ⟨.general, none⟩

/-- The geometric shapes. -/
inductive ShapeKind where
  | rectangle | roundedRectangle | ellipse
deriving DecidableEq

/-- What a box shows. -/
inductive BoxContent where
  | text (text : String)
  /-- The value of a field; `fallback` is shown when the data lack it. -/
  | field (name : String) (format : ValueFormat) (fallback : String)
  /-- The value of a formula; `fallback` is shown when the data lack a field it needs. -/
  | calculated (formula : String) (format : ValueFormat) (fallback : String)
  | image (source : String)
  | barcode (symbology data : String)
  | shape (kind : ShapeKind) (fill : Option Color)
deriving DecidableEq

/-- The name of a kind of content. -/
def BoxContent.typeName : BoxContent → String
  | text .. => "text"
  | field .. => "field"
  | calculated .. => "calculated"
  | image .. => "image"
  | barcode .. => "barcode"
  | shape .. => "shape"

/-- A straight line. -/
structure Line (κ : Type) where
  x1 : κ
  y1 : κ
  x2 : κ
  y2 : κ
  strokeWidth : κ
  style : LineStyle
  color : Color
deriving BEq

/-- What a control is: a box or a line. -/
inductive Body (κ : Type) where
  | box (frame : Frame κ) (border : Border κ) (content : BoxContent)
  | line (line : Line κ)
deriving BEq

/-- A control on the design surface. -/
structure Control (κ : Type) where
  id : String
  /-- The place in the stacking order; higher is on top. -/
  zIndex : Int
  printVisible : Bool
  body : Body κ
deriving BEq

/-- The directions of a line. -/
inductive Orientation where
  | horizontal | vertical | diagonal
deriving DecidableEq

variable {κ : Type} [Coordinate κ]

namespace Border

/-- No border. -/
def empty : Border κ := ⟨Coordinate.ofNat 0, none, .solid⟩

/-- A black border of a width. -/
def solid (width : κ) : Border κ := ⟨width, some .black, .solid⟩

end Border

namespace Line

/-- A thin black line. -/
def thin (x1 y1 x2 y2 : κ) : Line κ := ⟨x1, y1, x2, y2, Coordinate.ofNat 1, .solid, .black⟩

/-- The distance of the endpoints. -/
def length (l : Line κ) : κ := Coordinate.hypotenuse (l.x2 - l.x1) (l.y2 - l.y1)

/-- The direction of the line; a point counts as horizontal. -/
def orientation (l : Line κ) : Orientation :=
  if l.y1 == l.y2 then .horizontal else if l.x1 == l.x2 then .vertical else .diagonal

end Line

namespace Control

/-- A box that prints, at the lowest place, without a border. -/
def ofContent (id : String) (frame : Frame κ) (content : BoxContent) : Control κ :=
  ⟨id, minZIndex, true, .box frame .empty content⟩

/-- A line that prints, at the lowest place. -/
def ofLine (id : String) (line : Line κ) : Control κ := ⟨id, minZIndex, true, .line line⟩

/-- The name of the control's type. -/
def typeName (c : Control κ) : String :=
  match c.body with
  | .box _ _ content => content.typeName
  | .line _ => "line"

/-- Is the control a line? -/
def isLine (c : Control κ) : Bool :=
  match c.body with
  | .box .. => false
  | .line _ => true

/-- The line, if the control is one. -/
def line? (c : Control κ) : Option (Line κ) :=
  match c.body with
  | .box .. => none
  | .line l => some l

/-- The width of the border; lines have none. -/
def borderWidth (c : Control κ) : κ :=
  match c.body with
  | .box _ border _ => border.width
  | .line _ => Coordinate.ofNat 0

/-- Set the border of a box. -/
def withBorder (border : Border κ) (c : Control κ) : Control κ :=
  match c.body with
  | .box frame _ content => { c with body := .box frame border content }
  | .line _ => c

/-- The upper and the lower end of the control. -/
def verticalSpan (c : Control κ) : κ × κ :=
  match c.body with
  | .box frame _ _ => (frame.y, frame.y + frame.height)
  | .line l => (smaller l.y1 l.y2, larger l.y1 l.y2)

end Control

end BandedReport
