import Chart.Json.Token

set_option autoImplicit false

/-!
JSON texts as syntax trees. A document keeps the fields of an object in the order in which they
were written, repeated names included, so that a reader of a particular form can still refuse
them. Reading goes over the tokens once, with the open lists and objects on a stack.
-/

namespace Chart.Json

inductive Document
  | null
  | truth (value : Bool)
  | number (numeral : Numeral)
  | text (content : Option String)
  | list (items : List Document)
  | object (fields : List (Option String × Document))

/-- A list or object that is still open; what it holds so far comes last one first. -/
inductive Container
  | list (items : List Document)
  | object (fields : List (Option String × Document)) (key : Option String)

/-- What a document may go on with. -/
inductive Position
  | value (outer : List Container)
  | firstItem (outer : List Container)
  | firstKey (outer : List Container)
  | key (outer : List Container) (fields : List (Option String × Document))
  | colon (outer : List Container) (fields : List (Option String × Document))
      (key : Option String)
  | separator (container : Container) (outer : List Container)
  | finished (document : Document)

namespace Position

/-- A value is complete: it joins the innermost open container, or it is the whole document. -/
def complete (document : Document) : List Container → Position
  | [] => .finished document
  | .list items :: outer => .separator (.list (document :: items)) outer
  | .object fields name :: outer => .separator (.object ((name, document) :: fields) name) outer

def startValue (outer : List Container) : Token → Option Position
  | .null => some (complete .null outer)
  | .truth holds => some (complete (.truth holds) outer)
  | .number numeral => some (complete (.number numeral) outer)
  | .text content => some (complete (.text content) outer)
  | .openList => some (.firstItem outer)
  | .openObject => some (.firstKey outer)
  | .closeList | .closeObject | .comma | .colon => none

def step : Position → Token → Option Position
  | .value outer, token => startValue outer token
  | .firstItem outer, .closeList => some (complete (.list []) outer)
  | .firstItem outer, token => startValue (.list [] :: outer) token
  | .firstKey outer, .closeObject => some (complete (.object []) outer)
  | .firstKey outer, .text name => some (.colon outer [] name)
  | .key outer fields, .text name => some (.colon outer fields name)
  | .colon outer fields name, .colon => some (.value (.object fields name :: outer))
  | .separator (.list items) outer, .comma => some (.value (.list items :: outer))
  | .separator (.list items) outer, .closeList => some (complete (.list items.reverse) outer)
  | .separator (.object fields _) outer, .comma => some (.key outer fields)
  | .separator (.object fields _) outer, .closeObject =>
      some (complete (.object fields.reverse) outer)
  | _, _ => none

end Position

/-- The document of a text that is exactly one value between blanks. -/
def Document.ofText? (text : String) : Option Document := do
  let tokens ← scanTokens text.toList []
  match ← tokens.foldlM Position.step (.value []) with
  | .finished document => some document
  | _ => none

end Chart.Json
