import TraceGen.Unicode.Category

/-!
# Binary properties

A binary property is given by the categories whose characters mostly have it, and the ranges of code
points where this is the other way round. `isWord` and `isAlphanumeric` are the classes built from
them.
-/

namespace TraceGen.Unicode

/-- A binary property of characters. -/
structure Property where
  /-- Its names, in lower case without separators. -/
  names : List String
  /-- The letters of the categories whose characters mostly have it. -/
  categories : List Nat
  /-- One at the code points for which the categories decide wrongly. -/
  flips : Table

/-- Builds a property from its written form. -/
def Property.of (names : List String) (letters gaps : String) : Property :=
  ⟨names, letters.toList.filterMap Category.ofLetter?, Table.ofGaps gaps⟩

/-- Whether a character has the property. -/
def Property.holds (p : Property) (c : Char) : Bool :=
  p.categories.contains (Category.of c) != (p.flips.valueAt c.toNat == 1)

namespace Property

/-- The property `Alphabetic`. -/
def alphabetic : Property :=
  .of ["alphabetic", "alpha"] "FGHIJKO"
    (String.join [
      "837 29+12 576+13 1 1+1 1+1 1 72+10 48+12 1+6 16 101+6 4+3 2+1 4 35 30+15 102+10 101+1 ",
      "3+8 1+2 1+3 106 60+11 3+6 6+18 55 6+7 12+2 10+1 29 63+3 29+1 29+1 62+1 4+1 2+1 4 30+1 3 ",
      "11+1 62+4 1+1 25+1 22+2 4 61 1+3 17 11+1 30 61 63 3 57+2 5+2 1+2 8+1 11+1 29 61 6 5 ",
      "21+1 28+1 63+3 29+1 29 80+2 1 90 2+6 18 99 2+5 1+1 16 112+1 49+13 1+3 9+10 1+35 112+3 ",
      "1+4 6+1 25+1 4+2 16+3 13 2+1 6 15 1652+1 1 28+2 29+1 30+1 67+6 8 190+1 34 118+2 4+1 9 ",
      "228+1 2 58 1+6 3 2+7 6+1 74+1 11+2 49+3 50+4 1 5 1 59+1 32+3 2+2 1+1 58+1 3 1+4 56+7 2 ",
      "170 21 219+33 1729+51 2294+31 558+1 30276+7 34+1 354 8 25+1 158 57 38+4 28+10 1 44+2 ",
      "51+3 2+1 2 36 67+5 2+1 2+1 12 8 47 51 1+2 2+1 5 45+1 247 2 3 20273 2135+4 1670+2 1+1 ",
      "5+3 788+3 65 321+1 77+2 260 54+13 45+1 11+1 49+3 11 61+2 36+4 1+5 77+1 52+8 1 14 95+2 ",
      "2+1 1 6 2 157 3+5 23+1 62 12 109+5 14 104+7 3+1 110+5 1 4+1 241+3 6+1 30+1 85+7 2 2 106 ",
      "1 2+6 102 1 2+3 1+3 260+8 259+2 150+3 2+1 37+9 42+3 2+3 18+5 2+2 46+12 201 1+2 1 201+6 ",
      "1+5 84+21 2+6 1+1 1+1 122+5 3 1+1 1+2 1 3 72+1 3 349+1 11+1 52+4 5+1 16860+11 3+1 3616 ",
      "63+3 19723 5318+1 6+5 3725+6 1+16 2+6 1+1 1+4 100 1619 2 7+1 5 593 2024+25 6+25 6+25"])

/-- The property `Lowercase`. -/
def lowercase : Property :=
  .of ["lowercase", "lower"] "FG"
    (String.join [
      "170 15 510+6 6+11 26 1 86 46 484 230 164+1 269+1 4 31 9 3 160 167 1236 127 2320 107 611 ",
      "464+5 1266+15 848+25 2181 191 469 43+4 5 97+1 93+2 28438 1250+5 270 114 151+8 104 582 ",
      "22 137 108 21+1 21627 45+1 2017+1 1483 32 341 3859 19814+3 508+2 40+1 550+12 64+1 1 ",
      "14+1 16380+3 1+6 1+1 12600+6 941 531 587"])

/-- The property `Uppercase`. -/
def uppercase : Property :=
  .of ["uppercase", "upper"] "J"
    "8544+15 838+25 117856+25 6+25 6+25"

/-- The property `Cased`. -/
def cased : Property :=
  .of ["cased"] "FGIJ"
    (String.join [
      "170 15 510+6 6+11 26 1 86 46 484 230 164+1 269+1 4 31 9 3 160 167 1236 127 2320 107 611 ",
      "464+5 1250+31 822+51 2181 191 469 43+4 5 97+1 93+2 28438 1250+5 270 114 151+8 104 582 ",
      "22 137 108 21+1 21627 45+1 2017+1 1483 32 341 3859 19814+3 508+2 40+1 550+12 64+1 1 ",
      "14+1 16380+3 1+6 1+1 12600+6 941 531 587 2020+25 6+25 6+25"])

/-- The property `White_Space`. -/
def whiteSpace : Property :=
  .of ["whitespace", "wspace", "space"] "bcd"
    "9+4 119"

/-- The property `Math`. -/
def math : Property :=
  .of ["math"] "Z"
    (String.join [
      "94 881+2 2 26+1 2+1 7200 27+2 11 32+3 24+1 14+1 65+12 4 3+1 4+4 18 4 2+9 1 3+4 6 3+1 ",
      "2+1 1+2 1+5 3+3 5+4 75+4 2+3 1+1 1+1 1 1+4 2+1 4+1 4+17 2+1 1 1+6 1 6+1 290+3 168+1 1 ",
      "24 17 445+1 12+8 5+4 5+1 2+1 3+4 14 1 2+5 24+1 57 1 29+3 9+1 342+1 31+9 403+21 63+3 ",
      "32+1 54371 1 4 211 1 54465+84 1+70 1+1 2 2+1 2+3 1+11 1 1+6 1+64 1+3 2+7 1+6 1+27 1+3 ",
      "1+4 1 3+6 1+339 2+24 1+24 1+30 1+24 1+30 1+24 1+30 1+24 1+30 1+24 1+7 2+49 5632+3 1+26 ",
      "1+1 1 2 1+9 1+3 1 1 6 4 1 1 1+2 1+1 1 2 1 1 1 1 1+1 1 2+3 1+6 1+3 1+3 1 1+9 1+16 5+2 ",
      "1+4 1+16"])

/-- The property `Hex_Digit`. -/
def hexDigit : Property :=
  .of ["hexdigit", "hex"] ""
    "48+9 7+5 26+5 65193+9 7+5 26+5"

/-- The property `ASCII_Hex_Digit`. -/
def asciiHexDigit : Property :=
  .of ["asciihexdigit", "ahex"] ""
    "48+9 7+5 26+5"

/-- The property `Dash`. -/
def dash : Property :=
  .of ["dash"] "R"
    "8275 39 15 390"

/-- The property `Diacritic`. -/
def diacritic : Property :=
  .of ["diacritic", "dia"] "GY"
    (String.join [
      "183 584+78 1+7 5+5 288+4 265+44 1 1+1 1+1 1 120 10+7 4+1 134+1 9+2 67+26 91+10 58+8 6 ",
      "29+2 9 3 95 15+7 42+8 16+27 61 16 3+3 103 16 110 16 110 16 47+2 60 16 7 119 110 16 110 ",
      "16 109+1 16 124 111 11+6 1 107 11 1+4 75+1 27 1 1 4+1 66+2 1+1 62 112 1+1 40+1 4+4 25+6 ",
      "1 10+1 96 608+2 948+1 30 148+10 3 5 101 245+2 292 20+7 2 39 8+14 2+10 3+14 2+11 72 15 ",
      "38+8 54+1 58 11+1 66+1 152+24 4 6 2+2 126 70 4+11 37+10 625 13 16+12 3039+1 113+2 125 ",
      "661 36+5 1+4 5 93+1 2+1 94+1 28438 1250+5 270 98 12+1 114+1 126 129+2 17 37 151 27+17 ",
      "57+3 36 95 12 14 21+1 137 10+2 65+3 26 21+1 1 245+1 20272 147+16 605+15 1200 1879+2 4 ",
      "165+1 571+5 65+4 1 341 52 2+2 70+10 49+3 192 41 72+1 120+1 62 76 9+2 104+1 178+1 80+1 ",
      "16 24+6 3+4 89+2 1+1 13+1 95 3 123+1 251+1 126 118+1 115 269+1 258+1 4 156 83 18 81 421 ",
      "258 1+1 81 425+1 23 5356+14 11481 2496+4 59+6 9+3 508+2 588+3 77+1 1 12+3 24332+45 2+22 ",
      "544+2 3+5 8+7 2+6 30+3 3970+13 368 61+3 507 258+1 271 464+6 109+2 1+3 2735+4"])

/-- The property `Extender`. -/
def extender : Property :=
  .of ["extender", "ext"] ""
    (String.join [
      "183 536+1 878 441 630 137 89 752 127 2371 56 611 398 68 5001 43+4 103+1 93+2 28438 1526 ",
      "962 22 137 108 21+1 21627 2064+1 1483 27 4 1223 293 116+1 498+2 1231 832 19816+1 1180+1 ",
      "1 14+1 29000+1 1201 852+2"])

/-- The property `Emoji`. -/
def emoji : Property :=
  .of ["emoji"] ""
    (String.join [
      "35 6 5+9 111 4 8077 12 216 22 90+5 15+1 367+1 12 166 25+10 4+2 199 231+1 10 9 58+3 1+4 ",
      "9 2 2+1 2 4 2 1+1 2 3 3+1 8+2 5 1 5+11 11+1 2 1+1 1 18 2+1 18+5 1 1+1 3+1 5 2+1 4+1 ",
      "11+1 5+1 2 5+1 1 1+1 20+1 5+5 1+3 2 4 2 2+5 1 2 1 1 6 3 6 10+1 15 2 4 1 4+2 1 11+1 48+2 ",
      "9 14 14 372+1 463+2 19+1 51 4 1242 12 601 1 114026 202 160+1 12+1 14 2+9 75+25 1+1 23 ",
      "20 2+8 21+1 174+33 2+111 2+1 1+2 2+82 2+2 1+262 1+62 11+5 1+23 7+1 2+7 12 2+3 2 4+1 ",
      "13+1 2 8+1 9 5+2 12+2 8+2 2 1 4 6 3 6+85 48+69 5+7 2+3 3+9 3 1+1 3 2+9 227+11 4 283+46 ",
      "1+9 1+184 112+12 3+10 3+56 1 4+15 2+11 4+9"])

/-- The property `Emoji_Presentation`. -/
def emojiPresentation : Property :=
  .of ["emojipresentation", "epres"] ""
    (String.join [
      "8986+1 205+3 3 2 521+1 21+1 50+11 43 19 13 8+1 17+1 5+1 8 5 21 7+1 1 4 2 7 4+1 28 35 1 ",
      "4+2 1 61+2 24 14 859+1 51 4 115886 202 190 2+9 75+25 1 24 20 2+4 1+2 21+1 174+32 12+8 ",
      "1+69 1+21 12+42 4+4 12+16 3 3+70 1 1+186 2+62 13+3 1+23 18 26+1 13 86+84 48+69 6 3+2 ",
      "2+3 3+3 11+1 7+8 227+11 4 283+46 1+9 1+184 112+12 3+10 3+56 1 4+15 2+11 4+9"])

/-- The property `Emoji_Modifier`. -/
def emojiModifier : Property :=
  .of ["emojimodifier", "emod"] ""
    "127995+4"

/-- The property `Emoji_Modifier_Base`. -/
def emojiModifierBase : Property :=
  .of ["emojimodifierbase", "ebase"] ""
    (String.join [
      "9757 219 16+3 117879 60+2 2 2+2 117+1 2+10 21+18 3 4+2 1+2 7 1 24 201+1 4 21 4+1 174+2 ",
      "3+4 83 16+2 9 11 575 2 8+7 6 9+9 2+2 56 61+1 1+1 1 17+2 1+12 229+2 42+8"])

/-- The property `Emoji_Component`. -/
def emojiComponent : Property :=
  .of ["emojicomponent", "ecomp"] ""
    "35 6 5+9 8147 213 56619 62422+25 507+4 1456+3 788076+95"

/-- The property `Extended_Pictographic`. -/
def extendedPictographic : Property :=
  .of ["extendedpictographic", "extpict"] ""
    (String.join [
      "169 4 8077 12 216 22 90+5 15+1 367+1 12 166 25+10 4+2 199 231+1 10 9 58+3 1+4 9 2 2+1 2 ",
      "4 2 1+1 2 3 3+1 8+2 5 1 5+11 11+1 2 1+1 1 18 2+1 18+5 1 1+1 3+1 5 2+1 4+1 11+1 5+1 2 ",
      "5+1 1 1+1 20+1 5+5 1+3 2 4 2 2+5 1 2 1 1 6 3 6 10+1 15 2 4 1 4+2 1 11+1 48+2 9 14 14 ",
      "372+1 463+2 19+1 51 4 1242 12 601 1 114026 39+3 100+11 15+1 15 14+1 37+9 112+1 12+1 14 ",
      "2+9 19+55 27+14 10 20 2+8 1+3 9+22 6+187 2+111 2+1 1+2 2+82 2+2 1+3 5+253 1+62 11+5 ",
      "1+23 7+1 2+7 12 2+3 2 4+1 13+1 2 8+1 9 5+2 12+2 8+2 2 1 4 6 3 6+85 48+69 5+7 2+16 3 1+5 ",
      "2+12 218+37 12+3 56+7 10+5 40+7 30+1 12+3 2+13 9+38 12+46 1+9 1+184 88+7 14+145 256+1021"])

/-- The property `ID_Start`. -/
def idStart : Property :=
  .of ["idstart", "ids"] "FGHIJO"
    "6277+1 2193 21 3328 619+1"

/-- The property `ID_Continue`. -/
def idContinue : Property :=
  .of ["idcontinue", "idc"] "FGHIJKMNOQ"
    "183 719 4065+8 1640 1585+1 266 21 3328 619+1 94 52841"

/-- The property `XID_Start`. -/
def xidStart : Property :=
  .of ["xidstart", "xids"] "FGHIJO"
    "890 2744 127 2513+1 2193 21 3328 52782+5 406+1 116 1 1 1 1 1 1 1 287+1"

/-- The property `XID_Continue`. -/
def xidContinue : Property :=
  .of ["xidcontinue", "xidc"] "FGHIJKMNOQ"
    "183 706 12 4065+8 1640 1585+1 266 21 3328 715 52066+5 406+1 116 1 1 1 1 1 1 1 230"

/-- The property `Ideographic`. -/
def ideographic : Property :=
  .of ["ideographic", "ideo"] ""
    (String.join [
      "12294+1 25+8 14+2 965+6591 64+20991 22784+365 2+105 29962 13+4 9+7381 41+31 97+114 ",
      "9085+395 19716+42719 32+4381 2+5773 2+7472 15+621 2466+541 1506+4938 5+8489"])

/-- The property `Unified_Ideograph`. -/
def unifiedIdeograph : Property :=
  .of ["unifiedideograph", "uideo"] ""
    (String.join [
      "13312+6591 64+20991 23054+1 1 1+1 10 1 1+1 2+2 67030+42719 32+4381 2+5773 2+7472 15+621 ",
      "4514+4938 5+8489"])

/-- The property `Join_Control`. -/
def joinControl : Property :=
  .of ["joincontrol", "joinc"] ""
    "8204+1"

/-- The property `Grapheme_Extend`. -/
def graphemeExtend : Property :=
  .of ["graphemeextend", "grext"] "BLM"
    (String.join [
      "173 1362+5 22 192 49 384+1 80 219 24 358 24 102 24 232 1 4+1 1+1 9+1 103 24 119 15 2357 ",
      "30 217 806 5 1 5+1 101 71+1 1047 1+2 26+4 49+4 1+9 4030+1 31011 108 21822 158+1 89+2 ",
      "4289 15 242 116 264 14 9 96 9 2 1+2 5 224 12 241 262 633 12 1539 5358+15 15280+1 ",
      "19630+3 5313+1 6+13 798342"])

/-- The property `Quotation_Mark`. -/
def quotationMark : Property :=
  .of ["quotationmark", "qmark"] ""
    "34 4 131 15 8028+7 25+1 3591 457+3 13+2 52769+3 189 4 90+1"

/-- The property `Noncharacter_Code_Point`. -/
def noncharacterCodePoint : Property :=
  .of ["noncharactercodepoint", "nchar"] ""
    (String.join [
      "64976+31 526+1 65534+1 65534+1 65534+1 65534+1 65534+1 65534+1 65534+1 65534+1 65534+1 ",
      "65534+1 65534+1 65534+1 65534+1 65534+1 65534+1 65534+1"])

/-- The property `Pattern_White_Space`. -/
def patternWhiteSpace : Property :=
  .of ["patternwhitespace", "patws"] "bc"
    "9+4 18 100 8072+1"

/-- The property `Pattern_Syntax`. -/
def patternSyntax : Property :=
  .of ["patternsyntax", "patsyn"] ""
    (String.join [
      "33+14 10+6 26+3 1 26+3 34+6 1 1+1 1 1+1 4 4 3 23 31 7960+23 8+14 2+18 1+9 305+719 ",
      "160+629 30+1131 512+127 385+2 4+24 15 52493+1 261+1"])

/-- The property `Radical`. -/
def radical : Property :=
  .of ["radical"] ""
    "11904+25 1+88 12+213"

/-- The property `Regional_Indicator`. -/
def regionalIndicator : Property :=
  .of ["regionalindicator", "ri"] ""
    "127462+25"

/-- The property `Variation_Selector`. -/
def variationSelector : Property :=
  .of ["variationselector", "vs"] ""
    "6155+2 1 58864+15 852720+239"

/-- The property `Soft_Dotted`. -/
def softDotted : Property :=
  .of ["softdotted", "sd"] ""
    (String.join [
      "105+1 196 281 30 52 20 320 98 1 6409 51 13 3 132 157 421 214+1 2866 108453+1 50+1 50+1 ",
      "50+1 50+1 50+1 50+1 50+1 50+1 50+1 50+1 50+1 50+1 2182 305+1 26"])

/-- The property `Sentence_Terminal`. -/
def sentenceTerminal : Property :=
  .of ["sentenceterminal", "sterm"] ""
    (String.join [
      "33 12 16 1353 147+2 180 43+2 246 61 1 3+1 293+1 1764+1 790 4+1 773 198+1 157+1 45 5 ",
      "314+1 354+3 162+1 10+1 2+1 29+2 187+1 65+1 932 23+1 9+2 3247+2 306 13 22+1 429 29948 ",
      "270+1 227 3 382+1 86+1 95 152+1 147+2 144+1 249 21030 2+1 59 3+1 169 12 16 65 2804+1 ",
      "1277+4 44+3 189+1 117+3 127+2 129+1 6 16+1 88+1 1+1 108 298+1 117+1 373+1 5+14 105+1 ",
      "249+2 517 1 251+1 87+1 420+1 692+1 74+1 19241+1 133 65+1 11 553+1 296 19974 7656"])

/-- The property `Terminal_Punctuation`. -/
def terminalPunctuation : Property :=
  .of ["terminalpunctuation", "term"] ""
    (String.join [
      "33 10 1 11+1 3 830 8 513 57 72 14 1+2 180 43+10 1 235+1 54+5 1+7 31 261+1 1268+1 172 ",
      "4+5 311+1 789+7 773 124+2 71+1 157+2 3 39+3 2+1 314+1 354+3 162+1 10+1 1+2 29+2 187+4 ",
      "62+1 932 23+1 9+2 3247+2 306 13 4 10 1+1 3+1 428+1 29947+1 269+2 227+4 382+1 86+1 95 ",
      "151+2 147+2 127 16+1 249 21030 2+1 57+2 1+3 169 10 1 11+1 3 65 2 1082 48 1158 199 310+1 ",
      "152+5 68+5 89+3 952+4 44+3 189+6 112+3 127+2 129+1 6 16+1 88+4 108 298+1 117+2 12+1 ",
      "358+3 3+14 105+1 249+2 517 1 251+1 87+1 4+1 414+2 45 645+1 74+1 1323+4 17913+1 133 65+2 ",
      "10 553+1 295+1 19974 7655+3"])

/-- The property `Bidi_Control`. -/
def bidiControl : Property :=
  .of ["bidicontrol", "bidic"] ""
    "1564 6641+1 26+4 55+3"

/-- The property `Deprecated`. -/
def deprecated : Property :=
  .of ["deprecated", "dep"] ""
    "329 1321 2307 1 2089+1 2245+5 697+1 908502"

/-- The property `Default_Ignorable_Code_Point`. -/
def defaultIgnorableCodePoint : Property :=
  .of ["defaultignorablecodepoint", "di"] ""
    (String.join [
      "173 673 716 2882+1 1619+1 85+4 2043+4 26+4 49+15 4340 52379+15 239 160 79+8 48295+3 ",
      "5327+7 798341+4095"])

/-- The property `Logical_Order_Exception`. -/
def logicalOrderException : Property :=
  .of ["logicalorderexception", "loe"] ""
    "3648+4 123+4 2800+2 2 37114+1 2 1+1"

/-- The property `Case_Ignorable`. -/
def caseIgnorable : Property :=
  .of ["caseignorable", "ci"] "BGLMY"
    "39 6 11 124 719 471 148 6691+1 10 2 56811 62 2 177 6 11"

/-- The property `IDS_Binary_Operator`. -/
def idsBinaryOperator : Property :=
  .of ["idsbinaryoperator", "idsb"] ""
    "12272+1 2+9 497"

/-- The properties. -/
def all : List Property :=
  [alphabetic, lowercase, uppercase, cased, whiteSpace, math, hexDigit, asciiHexDigit, dash,
    diacritic, extender, emoji, emojiPresentation, emojiModifier, emojiModifierBase,
    emojiComponent, extendedPictographic, idStart, idContinue, xidStart, xidContinue,
    ideographic, unifiedIdeograph, joinControl, graphemeExtend, quotationMark,
    noncharacterCodePoint, patternWhiteSpace, patternSyntax, radical, regionalIndicator,
    variationSelector, softDotted, sentenceTerminal, terminalPunctuation, bidiControl,
    deprecated, defaultIgnorableCodePoint, logicalOrderException, caseIgnorable,
    idsBinaryOperator]

/-- The class of the property with this name. -/
def byName? (name : String) : Option (Char → Bool) :=
  (all.find? (·.names.contains name)).map fun p => p.holds

end Property

/-- Word characters: letters, marks, decimal digits, connecting punctuation and joiners. -/
def isWord (c : Char) : Bool :=
  Property.alphabetic.holds c || Category.isOne ["Mc", "Me", "Mn", "Nd", "Pc"] c ||
    Property.joinControl.holds c

/-- Decimal digits of every script. -/
def isDigit (c : Char) : Bool :=
  Category.isOne ["Nd"] c

/-- Alphabetic characters and numbers. -/
def isAlphanumeric (c : Char) : Bool :=
  Property.alphabetic.holds c || Category.isOne ["Nd", "Nl", "No"] c

/-- Characters with a shape of their own, and the space. -/
def isPrintable (c : Char) : Bool :=
  c == ' ' || !Category.isOne ["Cc", "Cf", "Cn", "Co", "Cs", "Zl", "Zp", "Zs"] c

end TraceGen.Unicode
