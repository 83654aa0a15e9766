import LayoutCompiler.Config.Basic
import LayoutCompiler.Json.Printer

/-
Writing layout configurations as JSON, without white space and with the fields in
their fixed order. What is absent is left out, and so is an empty identifier.
-/

namespace LayoutCompiler.Config

open Json (printText printInt printBool printList printObject)

/-- The member of an optional field. -/
def optionalMember {α : Type} (name : String) (print : α → List Char) (value : Option α) :
    List (String × List Char) :=
  (value.map fun a => (name, print a)).toList

/-- The members of an element, but for its children. -/
def Element.ownMembers (e : Element) : List (String × List Char) :=
  let text (name : String) := optionalMember name printText
  let int (name : String) := optionalMember name fun i : Int32 => printInt i.toInt
  [("type", printText e.kind.name)] ++
    (if e.id.isEmpty then [] else [("id", printText e.id)]) ++
    text "text" e.text ++
    text "color" e.color ++
    text "textColor" e.textColor ++
    int "fontSize" e.fontSize ++
    int "height" e.height ++
    int "cornerRadius" e.cornerRadius ++
    text "borderColor" e.borderColor ++
    int "borderWidth" e.borderWidth ++
    int "paddingH" e.paddingH ++
    int "paddingV" e.paddingV ++
    text "actionName" e.actionName ++
    optionalMember "align" (fun a : Alignment => printText a.name) e.align

mutual

/-- An element as an object. -/
def Element.print : Element → List Char
  | e@(.mk _ _ _ _ _ _ _ _ _ _ _ _ _ _ none) => printObject e.ownMembers
  | e@(.mk _ _ _ _ _ _ _ _ _ _ _ _ _ _ (some children)) =>
    printObject (e.ownMembers ++ [("children", printList (Element.printAll children))])

/-- Elements as objects. -/
def Element.printAll : List Element → List (List Char)
  | [] => []
  | e :: es => e.print :: Element.printAll es

end

/-- A layout as an object. -/
def Layout.print (l : Layout) : List Char :=
  printObject
    ([("backgroundColor", printText l.backgroundColor), ("scrollable", printBool l.scrollable)] ++
      optionalMember "padding" (fun i : Int32 => printInt i.toInt) l.padding ++
      [("elements", printList (Element.printAll l.elements))])

/-- A layout as a JSON text. -/
def Layout.toJson (l : Layout) : String :=
  String.ofList l.print

/-- An element as a JSON text. -/
def Element.toJson (e : Element) : String :=
  String.ofList e.print

end LayoutCompiler.Config
