import TraceGen.Unicode.Table

/-!
# Scripts

The script of every code point, as a table of runs: each run is a length and two letters that number
the script, a capital for the multiple of 26, or a point where there is no script.
-/

namespace TraceGen.Unicode

namespace Script

/-- The names of the scripts, in lower case without separators; each script has several. -/
def nameText : String :=
  String.join [
      "adlm adlam,aghb caucasianalbanian,ahom,arab arabic,armi imperialaramaic,armn ",
      "armenian,avst avestan,bali balinese,bamu bamum,bass bassavah,batk batak,beng ",
      "bengali,bhks bhaiksuki,bopo bopomofo,brah brahmi,brai braille,bugi buginese,buhd ",
      "buhid,cakm chakma,cans canadianaboriginal,cari carian,cham,cher cherokee,chrs ",
      "chorasmian,copt coptic qaac,cpmn cyprominoan,cprt cypriot,cyrl cyrillic,deva ",
      "devanagari,diak divesakuru,dogr dogra,dsrt deseret,dupl duployan,egyp ",
      "egyptianhieroglyphs,elba elbasan,elym elymaic,ethi ethiopic,geor georgian,glag ",
      "glagolitic,gong gunjalagondi,gonm masaramgondi,goth gothic,gran grantha,grek greek,gujr ",
      "gujarati,guru gurmukhi,hang hangul,hani han,hano hanunoo,hatr hatran,hebr hebrew,hira ",
      "hiragana,hluw anatolianhieroglyphs,hmng pahawhhmong,hmnp nyiakengpuachuehmong,hung ",
      "oldhungarian,ital olditalic,java javanese,kali kayahli,kana katakana,kawi,khar ",
      "kharoshthi,khmr khmer,khoj khojki,kits khitansmallscript,knda kannada,kthi kaithi,lana ",
      "taitham,laoo lao,latn latin,lepc lepcha,limb limbu,lina lineara,linb linearb,lisu,lyci ",
      "lycian,lydi lydian,mahj mahajani,maka makasar,mand mandaic,mani manichaean,marc ",
      "marchen,medf medefaidrin,mend mendekikakui,merc meroiticcursive,mero ",
      "meroitichieroglyphs,mlym malayalam,modi,mong mongolian,mroo mro,mtei meeteimayek,mult ",
      "multani,mymr myanmar,nagm nagmundari,nand nandinagari,narb oldnortharabian,nbat ",
      "nabataean,newa,nkoo nko,nshu nushu,ogam ogham,olck olchiki,orkh oldturkic,orya ",
      "oriya,osge osage,osma osmanya,ougr olduyghur,palm palmyrene,pauc paucinhau,perm ",
      "oldpermic,phag phagspa,phli inscriptionalpahlavi,phlp psalterpahlavi,phnx ",
      "phoenician,plrd miao,prti inscriptionalparthian,rjng rejang,rohg hanifirohingya,runr ",
      "runic,samr samaritan,sarb oldsoutharabian,saur saurashtra,sgnw signwriting,shaw ",
      "shavian,shrd sharada,sidd siddham,sind khudawadi,sinh sinhala,sogd sogdian,sogo ",
      "oldsogdian,sora sorasompeng,soyo soyombo,sund sundanese,sylo sylotinagri,syrc ",
      "syriac,tagb tagbanwa,takr takri,tale taile,talu newtailue,taml tamil,tang tangut,tavt ",
      "taiviet,telu telugu,tfng tifinagh,tglg tagalog,thaa thaana,thai,tibt tibetan,tirh ",
      "tirhuta,tnsa tangsa,toto,ugar ugaritic,vaii vai,vith vithkuqi,wara warangciti,wcho ",
      "wancho,xpeo oldpersian,xsux cuneiform,yezi yezidi,yiii yi,zanb zanabazarsquare,zinh ",
      "inherited qaai,zyyy common,gara garay,gukh gurungkhema,krai kiratrai,onao olonal,sunu ",
      "sunuwar,todr todhri,tutg tulutigalari"]

/-- The runs of the table. -/
def runs : String :=
  String.join [
      "65Gg26Cr6Gg26Cr47GgCr15GgCr5Gg23CrGg31CrGg449Cr39Gg5Cr5Gg2An20Gg112Gf4BrGg3Br2.4BrGgBr4.",
      "BrGgBrGg3Br.Br.20Br.63Br14Ay16Br133Bb2Gf169Bb.38Af2.50Af2.3Af.55By8.27By4.6By11.5AdGg6Ad",
      "Gg14AdGg3AdGg32AdGg10Ad11Gf26AdGf108AdGg34Ad14Fe.60Fe2.3Fe48Ad50Fp14.59Du2.3Du46Ep2.15Ep",
      ".28Db2.Db.11Fe5.34Ad5.75AdGg29Ad81Bc4Gf15Bc2Gg26Bc4Al.8Al2.2Al2.22Al.7Al.Al3.4Al2.9Al2.2",
      "Al2.4Al8.Al4.2Al.5Al2.25Al2.3Bt.6Bt4.2Bt2.22Bt.7Bt.2Bt.2Bt.2Bt2.Bt.5Bt4.2Bt2.3Bt3.Bt7.4B",
      "t.Bt7.17Bt10.3Bs.9Bs.3Bs.22Bs.7Bs.2Bs.5Bs2.10Bs.3Bs.3Bs2.Bs15.4Bs2.12Bs7.7Bs.3Dz.8Dz2.2D",
      "z2.22Dz.7Dz.2Dz.5Dz2.9Dz2.2Dz2.3Dz7.3Dz4.2Dz.5Dz2.18Dz10.2Fj.6Fj3.3Fj.4Fj3.2Fj.Fj.2Fj3.2",
      "Fj3.3Fj3.12Fj4.5Fj3.3Fj.4Fj2.Fj6.Fj14.21Fj5.13Fm.3Fm.23Fm.16Fm2.9Fm.3Fm.4Fm7.2Fm.3Fm.2Fm",
      "2.4Fm2.10Fm7.9Fm13Cn.3Cn.23Cn.10Cn.5Cn2.9Cn.3Cn.4Cn7.2Cn5.3Cn.4Cn2.10Cn.3Cn12.13Di.3Di.5",
      "1Di.3Di.6Di4.16Di2.26Di.3Ex.18Ex3.24Ex.9Ex.Ex2.7Ex3.Ex4.6Ex.Ex.8Ex6.10Ex2.3Ex12.58Fq4.Gg",
      "28Fq37.2Cq.Cq.5Cq.24Cq.Cq.23Cq2.5Cq.Cq.7Cq.10Cq2.4Cq32.72Fr.36Fr4.39Fr.36Fr.15Fr.7Fr4Gg2",
      "Fr37.160Do38Bl.Bl5.Bl2.43BlGg4Bl256Bu73Bk.4Bk2.7Bk.Bk.4Bk2.41Bk.4Bk2.33Bk.4Bk2.7Bk.Bk.4B",
      "k2.15Bk.57Bk.4Bk2.67Bk2.32Bk3.26Bk6.86Aw2.6Aw2.640At29Dw3.75Eo3Gg11Eo7.22Fo9.Fo21Bw2Gg9.",
      "20Ar12.13Ff.3Ff.2Ff12.94Ck2.10Ck6.10Ck6.2Dk2GgDkGg20Dk6.89Dk7.43Dk5.70At10.31Ct.12Ct4.12",
      "Ct4.Ct3.12Ct30Fh2.5Fh11.44Fi4.26Fi6.11Fi3.2Fi32Ck28Aq2.2Aq63Cp.29Cp2.11Cp6.10Cp6.14Cp2.4",
      "6Gf2.12Gf20.77Ah.50Ah64Fc52Ak8.4Ak56Cs3.15Cs3.3Cs48Dx11Bb5.43Bl2.3Bl8Fc8.3GfGg13GfGg7Gf4",
      "GgGf6GgGf3Gg2GfGg5.38Cr5BrBb49Cr5Br4Cr5Br13CrBb70CrBr64Gf256Cr22Br2.6Br2.38Br2.6Br2.8Br.",
      "Br.Br.Br.31Br2.53Br.15Br.14Br2.6Br.19Br2.3Br.9Br.12Gg2Gf87Gg.11GgCr2.11GgCr15Gg.13Cr3.34",
      "Gg14.33Gf15.38GgBr3Gg2Cr6GgCr27GgCr17Gg41Cr3Gg4.666Gg22.11Gg21.928Gg256Ap628Gg2.138Gg96B",
      "m32Cr116Ay5.7Ay38Bl.Bl5.Bl2.56Fn7.2Fn14.Fn23Bk9.7Bk.7Bk.7Bk.7Bk.7Bk.7Bk.7Bk.7Bk.32Bb94Gg",
      "34.26Bv.89Bv12.214Bv26.21GgBvGgBv25Gg9Bv4Gf2Bu8Gg4Bv4Gg.86Bz2.2Gf2Gg3BzGg90Ch2Gg3Ch5.43A",
      "n.94Bu.16Gg32An38Gg9.Gg16Ch31Bu.64Gg31Bu81Gg47ChGg88Ch168Gg6592Bv64Gg20992Bv1165Gd3.55Gd",
      "9.48Cw300Fw20.96Bb88Ai8.34Gg102Cr3Gg82Cr20.15Cr45Fd3.10Gg6.56Eg8.70Er8.12Er6.32Bc46CgGgC",
      "g36Em11.Em29Bu3.78Cf.Gg10Cf4.2Cf31Do.55Av9.14Av2.10Av2.4Av32Do67Fl24.5Fl23Dm10.6Bk2.6Bk2",
      ".6Bk9.7Bk.7Bk.43CrGg9CrBr4Cr2Gg4.80Aw46Dm2.10Dm6.11172Bu12.23Bu4.49Bu8452.366Bv2.106Bv38",
      ".7Cr12.5Af5.26By.5By.By.2By.2By.10By494Ad2Gg144Ad32.16Ad16Gf10Gg6.14Gf2Bb35Gg.19Gg.4Gg4.",
      "5Ad.135Ad2.Gg.32Gg26Cr6Gg26Cr11Gg10ChGg45Ch2Gg31Bu3.6Bu2.6Bu2.6Bu2.3Bu3.7Gg.7Gg10.5Gg2.1",
      "2Cv.26Cv.19Cv.2Cv.15Cv2.14Cv34.123Cv5.3Gg4.45Gg3.9Gg79Br.13Gg3.Br47.45GgGf130.29Cx3.49Au",
      "15.Gf27Gg4.36Ce9.3Ce27Bp5.43Ef5.30Fv.Fv36Ga4.14Ga42.80Bf48Et30Eb2.10Eb6.36Ea4.36Ea4.40Bi",
      "8.52Ab11.Ab11Fx.15Fx.7Fx.2Fx.11Fx.15Fx.7Fx.2Fx3.52Gm12.311Cu9.22Cu10.8Cu24.6Cr.42Cr.9Cr6",
      "9.6Ba2.Ba.44Ba.2Ba3.Ba2.Ba22Ae.9Ae32Ed31Ds8.9Ds48.19Bx.2Bx5.5Bx28Ej3.Ej26Cy5.Cy64.32Dh24",
      "Dg4.20Dg2.46Dg4Cj.2Cj5.8Cj.3Cj.29Cj2.3Cj4.10Cj7.9Cj7.32Eq32Dr32.39Dc4.12Dc9.54Ag3.7Ag22E",
      "l2.8El19Eh5.8Eh18Ei7.4Ei12.7Ei80.73Dy55.51Cd13.51Cd7.6Cd40En8.10En6.38Gh3.29Gh8.2Gh208.3",
      "1Ad.42Gc.3Gc2.2Gc16.6Ad8.9Ad33.6Ad40Ez8.42Ey22.26Ec38.28Ax20.23Bj9.78Ao4.36Ao9.Ao67Co10.",
      "Co2.25Fa7.10Fa6.53As.18As8.39Cz9.96Eu.20Ex11.18Cl.47Cl62.7Dn.Dn.4Dn.15Dn.11Dn6.59Ew5.10E",
      "w6.4Bq.8Bq2.2Bq2.22Bq.7Bq.2Bq.5Bq.Gf9Bq2.2Bq2.3Bq2.Bq6.Bq5.7Bq2.7Bq3.5Bq11.10Gn.Gn2.Gn.3",
      "8Gn.10Gn.Gn2.Gn.4Gn.10Gn.2Gn8.2Gn29.92Dt.5Dt30.72Fs8.10Fs166.54Ev2.38Ev34.69Dj11.10Dj6.1",
      "3Dk19.58Fg6.10Fg6.20Do28.27Ac2.15Ac4.23Ac185.60Be100.83Fy12.Fy7Bd2.Bd2.8Bd.2Bd.30Bd.2Bd2",
      ".12Bd9.10Bd70.8Dq2.46Dq2.11Dq27.72Ge8.83Fb13.16At57Ee7.10Bc86.8Eu88.34Gl14.10Gl6.9Am.45A",
      "m.14Am10.29Am3.32Dd2.22Dd.14Dd73.7Bo.2Bo.44Bo3.Bo.2Bo.9Bo8.10Bo6.6Bn.2Bn.37Bn.2Bn.6Bn7.1",
      "0Bn310.25Da7.17Ci.41Ci3.29Ci85.Cw15.50Fj13.Fj922Gb102.111Gb.5Gb11.196Gb2636.99Az13.1110B",
      "h10.3995Bh5.583Ca6841.58Gi1734.569Ai7.31Dl.10Dl4.2Dl79Ft.10Ft6.30Aj2.6Aj10.70Cb10.10Cb.7",
      "Cb.21Cb5.19Cb432.58Gj198.91De101.75Ek4.57Ek7.17Ek64.FkDv2BvCm11.7Bv9.6912Fk470Cm41.Cm31F",
      "k97.115Fk8701.4Ch.7Ch.2Ch.Ch287Bz3Ch15.Bz29.3Bz2.Ch14.4Ch8.396Dv2308.107Bg5.13Bg3.9Bg7.1",
      "0Bg2.4Bg4Gg3932.253Gg3.436Gg6.23Gg15.17Gg15.46Gf2.23Gf9.116Gg60.246Gg10.39Gg2.62Gg3Gf17G",
      "g8Gf2Gg7Gf30Gg4Gf61Gg21.70Br122.20Gg12.20Gg12.87Gg9.25Gg135.85Gg.71Gg.2Gg2.Gg2.2Gg2.4Gg.",
      "12Gg.Gg.7Gg.65Gg.4Gg2.8Gg.7Gg.28Gg.4Gg.5Gg.Gg3.7Gg.340Gg2.292Gg2.50Gg652Es15.5Es.15Es110",
      "4.31Cr6.6Cr213.7Bm.17Bm2.7Bm.2Bm.5Bm5.62Bb33.Bb112.45Cc3.14Cc2.10Cc4.2Cc320.31Fu17.58Fz5",
      ".Fz464.42Dp214.43Gk4.Gk480.7Bk.4Bk.2Bk.15Bk.197Df2.16Df41.76Aa4.10Aa4.2Aa785.68Gg76.61Gg",
      "194.4Ad.27Ad.2Ad.Ad2.Ad.10Ad.4Ad.Ad.Ad6.Ad4.Ad.Ad.Ad.3Ad.2Ad.Ad2.Ad.Ad.Ad.Ad.Ad.2Ad.Ad2.",
      "4Ad.7Ad.4Ad.4Ad.Ad.10Ad.17Ad5.3Ad.5Ad.17Ad52.2Ad270.44Gg4.100Gg12.15Gg2.15Gg.15Gg.37Gg10",
      ".174Gg56.26GgBz2Gg13.44Gg4.9Gg7.2Gg14.6Gg154.985Gg3.17Gg3.13Gg3.218Gg6.12Gg4.Gg15.12Gg4.",
      "56Gg8.10Gg6.40Gg8.30Gg2.12Gg4.2Gg14.9Gg39.344Gg8.14Gg2.13Gg3.11Gg3.57Gg.Gg4.16Gg2.12Gg4.",
      "10Gg7.147Gg.103Gg1029.42720Bv32.4382Bv2.5774Bv2.7473Bv15.622Bv2466.542Bv1506.4939Bv5.849",
      "0Bv707463.Gg30.96Gg128.240Gf196112."]

/-- The number of code points without a script. -/
def unknown : Nat := 1000

/-- The number that letters of the table stand for. -/
def ofLetters? : List Char → Option Nat
  | ['.'] => some unknown
  | [high, low] => some ((high.toNat - 65) * 26 + (low.toNat - 97))
  | _ => none

/-- The table of the scripts. -/
def table : Table :=
  Table.ofRuns ofLetters? runs

/-- The names of each script, in the order of their numbers. -/
def names : List (List String) :=
  (nameText.toList.splitOn ',').map fun ns => (ns.splitOn ' ').map String.ofList

/-- The number of a character's script. -/
def of (c : Char) : Nat :=
  table.valueAt c.toNat

/-- The class of the script with this name. -/
def byName? (name : String) : Option (Char → Bool) :=
  if name = "zzzz" ∨ name = "unknown" then some fun c => of c == unknown
  else (names.findIdx? (·.contains name)).map fun i c => of c == i

end Script

end TraceGen.Unicode
