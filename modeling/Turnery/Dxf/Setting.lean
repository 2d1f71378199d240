import Turnery.Dxf.Pair

/-!
# Settings of the header

The header of a file gives settings by name. The values of one that is known have codes of its own;
what stands under a name that is not known does not matter.
-/

namespace Turnery.Dxf.Setting

/-- The names of the settings that are known, by the codes that their values have. -/
def codes : List (List Int × List String) :=
  [([1], ["$ACADVER", "$DIMAPOST", "$DIMBLK", "$DIMBLK1", "$DIMBLK2", "$DIMLDRBLK", "$DIMPOST",
      "$HYPERLINKBASE", "$LASTSAVEDBY", "$MENU", "$PROJECTNAME", "$STYLESHEET"]),
    ([2], ["$CMLSTYLE", "$DIMSTYLE", "$FINGERPRINTGUID", "$PUCSBASE", "$PUCSNAME", "$PUCSORTHOREF",
      "$UCSBASE", "$UCSNAME", "$UCSORTHOREF", "$VERSIONGUID"]),
    ([3], ["$DWGCODEPAGE"]),
    ([5], ["$HANDSEED"]),
    ([6], ["$CELTYPE", "$DIMLTEX1", "$DIMLTEX2", "$DIMLTYPE"]),
    ([7], ["$DIMTXSTY", "$TEXTSTYLE"]),
    ([8], ["$CLAYER"]),
    ([10, 20, 30], ["$AXISUNIT", "$EXTMAX", "$EXTMIN", "$GRIDUNIT", "$INSBASE", "$LIMMAX",
      "$LIMMIN", "$PEXTMAX", "$PEXTMIN", "$PINSBASE", "$PLIMMAX", "$PLIMMIN", "$PUCSORG",
      "$PUCSORGBACK", "$PUCSORGBOTTOM", "$PUCSORGFRONT", "$PUCSORGLEFT", "$PUCSORGRIGHT",
      "$PUCSORGTOP", "$PUCSXDIR", "$PUCSYDIR", "$SNAPBASE", "$SNAPUNIT", "$UCSORG", "$UCSORGBACK",
      "$UCSORGBOTTOM", "$UCSORGFRONT", "$UCSORGLEFT", "$UCSORGRIGHT", "$UCSORGTOP", "$UCSXDIR",
      "$UCSYDIR", "$VIEWCTR", "$VIEWDIR"]),
    ([40], ["$3DDWFPREC", "$CAMERAHEIGHT", "$CELTSCALE", "$CHAMFERA", "$CHAMFERB", "$CHAMFERC",
      "$CHAMFERD", "$CMLSCALE", "$DIMALTF", "$DIMALTRND", "$DIMASZ", "$DIMCEN", "$DIMDLE",
      "$DIMDLI", "$DIMEXE", "$DIMEXO", "$DIMFXL", "$DIMGAP", "$DIMJOGANG", "$DIMLFAC", "$DIMRND",
      "$DIMSCALE", "$DIMTFAC", "$DIMTM", "$DIMTP", "$DIMTSZ", "$DIMTVP", "$DIMTXT", "$ELEVATION",
      "$FILLETRAD", "$LATITUDE", "$LENSLENGTH", "$LOFTANG1", "$LOFTANG2", "$LOFTMAG1", "$LOFTMAG2",
      "$LONGITUDE", "$LTSCALE", "$NORTHDIRECTION", "$PDSIZE", "$PELEVATION", "$PLINEWID",
      "$PSOLHEIGHT", "$PSOLWIDTH", "$PSVPSCALE", "$SHADOWPLANELOCATION", "$SKETCHINC", "$STEPSIZE",
      "$STEPSPERSEC", "$TDCREATE", "$TDINDWG", "$TDUCREATE", "$TDUPDATE", "$TDUSRTIMER",
      "$TDUUPDATE", "$TEXTSIZE", "$THICKNESS", "$TRACEWID", "$USERR1", "$USERR2", "$USERR3",
      "$USERR4", "$USERR5", "$VIEWSIZE"]),
    ([50], ["$ANGBASE", "$SNAPANG"]),
    ([62], ["$CECOLOR", "$INTERFERECOLOR"]),
    ([70], ["$ANGDIR", "$ATTDIA", "$ATTMODE", "$ATTREQ", "$AUNITS", "$AUPREC", "$AXISMODE",
      "$BLIPMODE", "$CMLJUST", "$COORDS", "$DELOBJ", "$DIMADEC", "$DIMALT", "$DIMALTD", "$DIMALTTD",
      "$DIMALTTZ", "$DIMALTU", "$DIMALTZ", "$DIMARCSYM", "$DIMASO", "$DIMATFIT", "$DIMAUNIT",
      "$DIMAZIN", "$DIMCLRD", "$DIMCLRE", "$DIMCLRT", "$DIMDEC", "$DIMDSEP", "$DIMFIT", "$DIMFRAC",
      "$DIMFXLON", "$DIMJUST", "$DIMLIM", "$DIMLUNIT", "$DIMLWD", "$DIMLWE", "$DIMSAH", "$DIMSD1",
      "$DIMSD2", "$DIMSE1", "$DIMSE2", "$DIMSHO", "$DIMSOXD", "$DIMTAD", "$DIMTDEC", "$DIMTFILL",
      "$DIMTFILLCLR", "$DIMTIH", "$DIMTIX", "$DIMTMOVE", "$DIMTOFL", "$DIMTOH", "$DIMTOL",
      "$DIMTOLJ", "$DIMTZIN", "$DIMUNIT", "$DIMUPT", "$DIMZIN", "$DISPSILH", "$DRAGMODE",
      "$FASTZOOM", "$FILLMODE", "$GRIDMODE", "$HANDLING", "$INSUNITS", "$LIMCHECK", "$LOFTPARAM",
      "$LUNITS", "$LUPREC", "$MAXACTVP", "$MEASUREMENT", "$MIRRTEXT", "$OBSCOLOR", "$ORTHOMODE",
      "$OSMODE", "$PDMODE", "$PICKSTYLE", "$PLIMCHECK", "$PLINEGEN", "$PROXYGRAPHICS", "$PSLTSCALE",
      "$PUCSORTHOVIEW", "$QTEXTMODE", "$REGENMODE", "$SHADEDGE", "$SHADEDIF", "$SKPOLY",
      "$SNAPISOPAIR", "$SNAPMODE", "$SNAPSTYLE", "$SPLFRAME", "$SPLINESEGS", "$SPLINETYPE",
      "$SURFTAB1", "$SURFTAB2", "$SURFTYPE", "$SURFU", "$SURFV", "$TILEMODE", "$TREEDEPTH",
      "$UCSORTHOVIEW", "$UNITMODE", "$USERI1", "$USERI2", "$USERI3", "$USERI4", "$USERI5",
      "$USRTIMER", "$VISRETAIN", "$WORLDVIEW"]),
    ([70, 90], ["$ACADMAINTVER"]),
    ([160], ["$REQUIREDVERSIONS"]),
    ([280], ["$CSHADOW", "$DGNFRAME", "$DIMASSOC", "$DWFFRAME", "$ENDCAPS", "$HALOGAP", "$INDEXCTL",
      "$JOINSTYLE", "$LIGHTGLYPHDISPLAY", "$LOFTNORMALS", "$OBSLTYPE", "$SHOWHIST", "$SOLIDHIST",
      "$SORTENTS", "$TILEMODELIGHTSYNCH"]),
    ([280, 290], ["$HIDETEXT", "$INTERSECTIONDISPLAY", "$XCLIPFRAME"]),
    ([290], ["$CAMERADISPLAY", "$EXTNAMES", "$LWDISPLAY", "$OLESTARTUP", "$PSTYLEMODE",
      "$REALWORLDSCALE", "$XEDIT"]),
    ([345], ["$INTERFEREOBJVS"]),
    ([346], ["$INTERFEREVPVS"]),
    ([347], ["$CMATERIAL"]),
    ([349], ["$DRAGVS"]),
    ([370], ["$CELWEIGHT"]),
    ([380], ["$CEPSNTYPE"]),
    ([390], ["$CEPSNID"])]

/-- The codes of the values of a setting, if it is known. -/
def codes? (name : String) : Option (List Int) :=
  (codes.find? fun (_, names) => names.contains name).map Prod.fst

def handleNames : List String :=
  ["$CEPSNID", "$CMATERIAL", "$DRAGVS", "$HANDSEED", "$INTERFEREOBJVS", "$INTERFEREVPVS"]

/-- The settings whose value is a unique identifier. -/
def identifierNames : List String := ["$FINGERPRINTGUID", "$VERSIONGUID"]

/-- A unique identifier without the braces around it or the words in front of it that it may
have. -/
def bareIdentifier (text : List Char) : List Char :=
  let urn := "urn:uuid:".toList
  if urn.isPrefixOf text then text.drop urn.length
  else if text.head? == some '\x7b' && text.getLast? == some '\x7d' then text.tail.dropLast
  else text

/-- The text is a unique identifier: 32 hexadecimal digits, or groups of 8, 4, 4, 4 and 12 of
them. -/
def isIdentifier (text : List Char) : Bool :=
  (text.length == 32 && isHexText text) ||
    (let groups := (bareIdentifier text).splitOn '-'
     groups.map List.length == [8, 4, 4, 4, 12] && groups.all isHexText)

def admits (name : String) (p : Pair) : Bool :=
  match codes? name with
  | none => true
  | some codes =>
    codes.contains p.code &&
      (!handleNames.contains name || p.isHandle) &&
      (!identifierNames.contains name || isIdentifier (p.text?.getD "").toList)

end Turnery.Dxf.Setting
