import Turnery.Dxf.Record

/-!
# Objects

A file also keeps what does not belong to its drawing: dictionaries, layouts, styles. Like a list of
entities, a list of objects ends at one that cannot be read, and objects of unknown kinds are passed
over.
-/

namespace Turnery.Dxf

/-- How objects of a kind are read. -/
structure ObjectKind where
  /-- The codes of the handles besides its own and that of its owner. -/
  furtherHandleCodes : List Int
  /-- A gap ends the object as the next object would. -/
  endsAtGap : Bool
  /-- What follows a pair of this code is data of any form. -/
  dataCode : Option Int

namespace ObjectKind

/-- The kinds that consist of single values. -/
def simpleNames : List String :=
  ["ACAD_PROXY_OBJECT", "ACDBPLACEHOLDER", "DGNDEFINITION", "DICTIONARYVAR", "DIMASSOC",
    "DWFDEFINITION", "FIELD", "GEODATA", "IDBUFFER", "IMAGEDEF", "IMAGEDEF_REACTOR", "LAYER_FILTER",
    "MENTALRAYRENDERSETTINGS", "OBJECT_PTR", "PDFDEFINITION", "PLOTSETTINGS", "RASTERVARIABLES",
    "RENDERENVIRONMENT", "RENDERGLOBAL", "SECTIONMANAGER", "SPATIAL_INDEX", "SUN", "VBA_PROJECT",
    "VISUALSTYLE", "WIPEOUTVARIABLES"]

/-- The kinds that consist of values that belong together. -/
def composedNames : List String :=
  ["DATATABLE", "LAYOUT", "LIGHTLIST", "MATERIAL", "MLINESTYLE", "SECTIONSETTINGS", "SORTENTSTABLE",
    "SPATIAL_FILTER", "SUNSTUDY", "TABLESTYLE"]

def ofName? (name : String) : Option ObjectKind :=
  match name with
  | "ACDBDICTIONARYWDFLT" => some ⟨[340, 350, 360], true, none⟩
  | "DICTIONARY" => some ⟨[350, 360], true, none⟩
  | "GROUP" => some ⟨[340], false, none⟩
  | "LAYER_INDEX" => some ⟨[360], false, none⟩
  | "XRECORD" => some ⟨[], true, some 280⟩
  | _ =>
    if simpleNames.contains name then some ⟨[], false, none⟩
    else if composedNames.contains name then some ⟨[], true, none⟩
    else none

end ObjectKind

/-- Skips the rest of an object; its data, once they have begun, may be anything. -/
def skipObject (encoding : Encoding) (kind : ObjectKind) (inData : Bool) (lines : List Line) :
    Outcome Unit lines.length :=
  match next encoding lines with
  | .fault rest h => .failed rest (Nat.le_of_lt h)
  | .gap rest h => if kind.endsAtGap then .done () rest h else .failed rest h
  | .pair p rest h =>
    if p.isHead then .done () lines (Nat.le_refl _)
    else if inData || kind.dataCode == some p.code then
      (skipObject encoding kind true rest).weaken (Nat.le_of_lt h)
    else
      match skipAnnex encoding (commonHandleCodes ++ kind.furtherHandleCodes) p rest with
      | .failed rest h' => .failed rest (short_of_shorter h' h)
      | .done () rest h' => (skipObject encoding kind false rest).weaken (short_of_shorter h' h)
termination_by lines.length
decreasing_by all_goals omega

/-- Skips objects, up to the end of the section or to where one cannot be read. -/
def skipObjects (encoding : Encoding) (lines : List Line) : Rest lines.length :=
  match next encoding lines with
  | .fault rest h => ⟨rest, Nat.le_of_lt h⟩
  | .gap rest h => ⟨rest, h⟩
  | .pair p rest h =>
    if p.isMark 0 "ENDSEC" then ⟨lines, Nat.le_refl _⟩
    else if !p.isHead then ⟨rest, Nat.le_of_lt h⟩
    else
      match
        match ObjectKind.ofName? (p.text?.getD "") with
        | some kind => skipObject encoding kind false rest
        | none => skipToHead encoding rest
      with
      | .failed rest h' => ⟨rest, short_of_shorter h' h⟩
      | .done () rest h' => (skipObjects encoding rest).weaken (short_of_shorter h' h)
termination_by lines.length
decreasing_by omega

end Turnery.Dxf
