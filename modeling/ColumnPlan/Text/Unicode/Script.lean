import ColumnPlan.Text.Unicode.Property

/-!
# Scripts of characters

Every character has one script, which for shared characters is "Common" or "Inherited".  Some of
them are known to be used with certain scripts only.

* `scriptNames`             the codes of the scripts, and their names in lower case without joiners;
* `scriptText`              the scripts of the characters from `U+0000` on: the code of a script,
                            then the length of its run in decimal unless it is one;
* `scriptRanges code`       the characters of a script;
* `scriptExtensions`        characters that are used with other scripts than their own;
* `usesScript code c`       whether a character is used with a script.
-/

namespace ColumnPlan.Unicode

def scriptNames : List (String × String) :=
  [("Adlm", "adlam"), ("Aghb", "caucasianalbanian"), ("Ahom", "ahom"), ("Arab", "arabic"),
    ("Armi", "imperialaramaic"), ("Armn", "armenian"), ("Avst", "avestan"), ("Bali", "balinese"),
    ("Bamu", "bamum"), ("Bass", "bassavah"), ("Batk", "batak"), ("Beng", "bengali"),
    ("Bhks", "bhaiksuki"), ("Bopo", "bopomofo"), ("Brah", "brahmi"), ("Brai", "braille"),
    ("Bugi", "buginese"), ("Buhd", "buhid"), ("Cakm", "chakma"), ("Cans", "canadianaboriginal"),
    ("Cari", "carian"), ("Cham", "cham"), ("Cher", "cherokee"), ("Chrs", "chorasmian"),
    ("Copt", "coptic"), ("Cpmn", "cyprominoan"), ("Cprt", "cypriot"), ("Cyrl", "cyrillic"),
    ("Deva", "devanagari"), ("Diak", "divesakuru"), ("Dogr", "dogra"), ("Dsrt", "deseret"),
    ("Dupl", "duployan"), ("Egyp", "egyptianhieroglyphs"), ("Elba", "elbasan"),
    ("Elym", "elymaic"), ("Ethi", "ethiopic"), ("Geor", "georgian"), ("Glag", "glagolitic"),
    ("Gong", "gunjalagondi"), ("Gonm", "masaramgondi"), ("Goth", "gothic"), ("Gran", "grantha"),
    ("Grek", "greek"), ("Gujr", "gujarati"), ("Guru", "gurmukhi"), ("Hang", "hangul"),
    ("Hani", "han"), ("Hano", "hanunoo"), ("Hatr", "hatran"), ("Hebr", "hebrew"),
    ("Hira", "hiragana"), ("Hluw", "anatolianhieroglyphs"), ("Hmng", "pahawhhmong"),
    ("Hmnp", "nyiakengpuachuehmong"), ("Hung", "oldhungarian"), ("Ital", "olditalic"),
    ("Java", "javanese"), ("Kali", "kayahli"), ("Kana", "katakana"), ("Kawi", "kawi"),
    ("Khar", "kharoshthi"), ("Khmr", "khmer"), ("Khoj", "khojki"), ("Kits", "khitansmallscript"),
    ("Knda", "kannada"), ("Kthi", "kaithi"), ("Lana", "taitham"), ("Laoo", "lao"),
    ("Latn", "latin"), ("Lepc", "lepcha"), ("Limb", "limbu"), ("Lina", "lineara"),
    ("Linb", "linearb"), ("Lisu", "lisu"), ("Lyci", "lycian"), ("Lydi", "lydian"),
    ("Mahj", "mahajani"), ("Maka", "makasar"), ("Mand", "mandaic"), ("Mani", "manichaean"),
    ("Marc", "marchen"), ("Medf", "medefaidrin"), ("Mend", "mendekikakui"),
    ("Merc", "meroiticcursive"), ("Mero", "meroitichieroglyphs"), ("Mlym", "malayalam"),
    ("Modi", "modi"), ("Mong", "mongolian"), ("Mroo", "mro"), ("Mtei", "meeteimayek"),
    ("Mult", "multani"), ("Mymr", "myanmar"), ("Nagm", "nagmundari"), ("Nand", "nandinagari"),
    ("Narb", "oldnortharabian"), ("Nbat", "nabataean"), ("Newa", "newa"), ("Nkoo", "nko"),
    ("Nshu", "nushu"), ("Ogam", "ogham"), ("Olck", "olchiki"), ("Orkh", "oldturkic"),
    ("Orya", "oriya"), ("Osge", "osage"), ("Osma", "osmanya"), ("Ougr", "olduyghur"),
    ("Palm", "palmyrene"), ("Pauc", "paucinhau"), ("Perm", "oldpermic"), ("Phag", "phagspa"),
    ("Phli", "inscriptionalpahlavi"), ("Phlp", "psalterpahlavi"), ("Phnx", "phoenician"),
    ("Plrd", "miao"), ("Prti", "inscriptionalparthian"), ("Rjng", "rejang"),
    ("Rohg", "hanifirohingya"), ("Runr", "runic"), ("Samr", "samaritan"),
    ("Sarb", "oldsoutharabian"), ("Saur", "saurashtra"), ("Sgnw", "signwriting"),
    ("Shaw", "shavian"), ("Shrd", "sharada"), ("Sidd", "siddham"), ("Sind", "khudawadi"),
    ("Sinh", "sinhala"), ("Sogd", "sogdian"), ("Sogo", "oldsogdian"), ("Sora", "sorasompeng"),
    ("Soyo", "soyombo"), ("Sund", "sundanese"), ("Sylo", "sylotinagri"), ("Syrc", "syriac"),
    ("Tagb", "tagbanwa"), ("Takr", "takri"), ("Tale", "taile"), ("Talu", "newtailue"),
    ("Taml", "tamil"), ("Tang", "tangut"), ("Tavt", "taiviet"), ("Telu", "telugu"),
    ("Tfng", "tifinagh"), ("Tglg", "tagalog"), ("Thaa", "thaana"), ("Thai", "thai"),
    ("Tibt", "tibetan"), ("Tirh", "tirhuta"), ("Tnsa", "tangsa"), ("Toto", "toto"),
    ("Ugar", "ugaritic"), ("Vaii", "vai"), ("Vith", "vithkuqi"), ("Wara", "warangciti"),
    ("Wcho", "wancho"), ("Xpeo", "oldpersian"), ("Xsux", "cuneiform"), ("Yezi", "yezidi"),
    ("Yiii", "yi"), ("Zanb", "zanabazarsquare"), ("Zinh", "inherited"), ("Zyyy", "common")]

/-- The code of a script, by the code or a name; two scripts have a second code. -/
def scriptCode? (name : String) : Option String :=
  match name with
  | "qaac" => some "Copt"
  | "qaai" => some "Zinh"
  | name =>
    (scriptNames.find? fun entry => entry.1.map Char.toLower = name || entry.2 = name).map (·.1)

/-- "Zzzz" stands for characters without a script. -/
def scriptText : String :=
  "Zyyy65Latn26Zyyy6Latn26Zyyy47LatnZyyy15LatnZyyy5Latn23ZyyyLatn31ZyyyLatn449Zyyy39Latn5" ++
  "Zyyy5Bopo2Zyyy20Zinh112Grek4ZyyyGrek3Zzzz2Grek4ZyyyGrekZzzz4GrekZyyyGrekZyyyGrek3Zzzz" ++
  "GrekZzzzGrek20ZzzzGrek63Copt14Grek16Cyrl133Zinh2Cyrl169ZzzzArmn38Zzzz2Armn50Zzzz2Armn3" ++
  "ZzzzHebr55Zzzz8Hebr27Zzzz4Hebr6Zzzz11Arab5ZyyyArab6ZyyyArab14ZyyyArab3ZyyyArab32Zyyy" ++
  "Arab10Zinh11Arab26ZinhArab108ZyyyArab34Syrc14ZzzzSyrc60Zzzz2Syrc3Arab48Thaa50Zzzz14" ++
  "Nkoo59Zzzz2Nkoo3Samr46Zzzz2Samr15ZzzzMand28Zzzz2MandZzzzSyrc11Zzzz5Arab31ZzzzArab2Zzzz6" ++
  "Arab74ZyyyArab29Deva81Zinh4Deva15Zyyy2Deva26Beng4ZzzzBeng8Zzzz2Beng2Zzzz2Beng22ZzzzBeng7" ++
  "ZzzzBengZzzz3Beng4Zzzz2Beng9Zzzz2Beng2Zzzz2Beng4Zzzz8BengZzzz4Beng2ZzzzBeng5Zzzz2Beng25" ++
  "Zzzz2Guru3ZzzzGuru6Zzzz4Guru2Zzzz2Guru22ZzzzGuru7ZzzzGuru2ZzzzGuru2ZzzzGuru2Zzzz2Guru" ++
  "ZzzzGuru5Zzzz4Guru2Zzzz2Guru3Zzzz3GuruZzzz7Guru4ZzzzGuruZzzz7Guru17Zzzz10Gujr3ZzzzGujr9" ++
  "ZzzzGujr3ZzzzGujr22ZzzzGujr7ZzzzGujr2ZzzzGujr5Zzzz2Gujr10ZzzzGujr3ZzzzGujr3Zzzz2Gujr" ++
  "Zzzz15Gujr4Zzzz2Gujr12Zzzz7Gujr7ZzzzOrya3ZzzzOrya8Zzzz2Orya2Zzzz2Orya22ZzzzOrya7Zzzz" ++
  "Orya2ZzzzOrya5Zzzz2Orya9Zzzz2Orya2Zzzz2Orya3Zzzz7Orya3Zzzz4Orya2ZzzzOrya5Zzzz2Orya18" ++
  "Zzzz10Taml2ZzzzTaml6Zzzz3Taml3ZzzzTaml4Zzzz3Taml2ZzzzTamlZzzzTaml2Zzzz3Taml2Zzzz3Taml3" ++
  "Zzzz3Taml12Zzzz4Taml5Zzzz3Taml3ZzzzTaml4Zzzz2TamlZzzz6TamlZzzz14Taml21Zzzz5Telu13Zzzz" ++
  "Telu3ZzzzTelu23ZzzzTelu16Zzzz2Telu9ZzzzTelu3ZzzzTelu4Zzzz7Telu2ZzzzTelu3Zzzz2TeluZzzz2" ++
  "Telu4Zzzz2Telu10Zzzz7Telu9Knda13ZzzzKnda3ZzzzKnda23ZzzzKnda10ZzzzKnda5Zzzz2Knda9Zzzz" ++
  "Knda3ZzzzKnda4Zzzz7Knda2Zzzz6Knda2ZzzzKnda4Zzzz2Knda10ZzzzKnda3Zzzz12Mlym13ZzzzMlym3Zzzz" ++
  "Mlym51ZzzzMlym3ZzzzMlym6Zzzz4Mlym16Zzzz2Mlym26ZzzzSinh3ZzzzSinh18Zzzz3Sinh24ZzzzSinh9" ++
  "ZzzzSinhZzzz2Sinh7Zzzz3SinhZzzz4Sinh6ZzzzSinhZzzzSinh8Zzzz6Sinh10Zzzz2Sinh3Zzzz12Thai58" ++
  "Zzzz4ZyyyThai28Zzzz37Laoo2ZzzzLaooZzzzLaoo5ZzzzLaoo24ZzzzLaooZzzzLaoo23Zzzz2Laoo5Zzzz" ++
  "LaooZzzzLaoo7ZzzzLaoo10Zzzz2Laoo4Zzzz32Tibt72ZzzzTibt36Zzzz4Tibt39ZzzzTibt36ZzzzTibt15" ++
  "ZzzzTibt7Zyyy4Tibt2Zzzz37Mymr160Geor38ZzzzGeorZzzz5GeorZzzz2Geor43ZyyyGeor4Hang256Ethi73" ++
  "ZzzzEthi4Zzzz2Ethi7ZzzzEthiZzzzEthi4Zzzz2Ethi41ZzzzEthi4Zzzz2Ethi33ZzzzEthi4Zzzz2Ethi7" ++
  "ZzzzEthiZzzzEthi4Zzzz2Ethi15ZzzzEthi57ZzzzEthi4Zzzz2Ethi67Zzzz2Ethi32Zzzz3Ethi26Zzzz6" ++
  "Cher86Zzzz2Cher6Zzzz2Cans640Ogam29Zzzz3Runr75Zyyy3Runr11Zzzz7Tglg22Zzzz9TglgHano21Zyyy2" ++
  "Zzzz9Buhd20Zzzz12Tagb13ZzzzTagb3ZzzzTagb2Zzzz12Khmr94Zzzz2Khmr10Zzzz6Khmr10Zzzz6Mong2" ++
  "Zyyy2MongZyyyMong20Zzzz6Mong89Zzzz7Mong43Zzzz5Cans70Zzzz10Limb31ZzzzLimb12Zzzz4Limb12" ++
  "Zzzz4LimbZzzz3Limb12Tale30Zzzz2Tale5Zzzz11Talu44Zzzz4Talu26Zzzz6Talu11Zzzz3Talu2Khmr32" ++
  "Bugi28Zzzz2Bugi2Lana63ZzzzLana29Zzzz2Lana11Zzzz6Lana10Zzzz6Lana14Zzzz2Zinh31Zzzz49Bali77" ++
  "Zzzz3Bali47ZzzzSund64Batk52Zzzz8Batk4Lepc56Zzzz3Lepc15Zzzz3Lepc3Olck48Cyrl9Zzzz7Geor43" ++
  "Zzzz2Geor3Sund8Zzzz8Zinh3ZyyyZinh13ZyyyZinh7Zyyy4ZinhZyyy6ZinhZyyy3Zinh2ZyyyZzzz5Latn38" ++
  "Grek5CyrlLatn49Grek5Latn4Grek5Latn13CyrlLatn70GrekZinh64Latn256Grek22Zzzz2Grek6Zzzz2" ++
  "Grek38Zzzz2Grek6Zzzz2Grek8ZzzzGrekZzzzGrekZzzzGrekZzzzGrek31Zzzz2Grek53ZzzzGrek15Zzzz" ++
  "Grek14Zzzz2Grek6ZzzzGrek19Zzzz2Grek3ZzzzGrek9ZzzzZyyy12Zinh2Zyyy87ZzzzZyyy11LatnZzzz2" ++
  "Zyyy11LatnZyyy15ZzzzLatn13Zzzz3Zyyy33Zzzz15Zinh33Zzzz15Zyyy38GrekZyyy3Latn2Zyyy6Latn" ++
  "Zyyy27LatnZyyy17Latn41Zyyy3Zzzz4Zyyy663Zzzz25Zyyy11Zzzz21Zyyy928Brai256Zyyy628Zzzz2" ++
  "Zyyy32ZzzzZyyy105Glag96Latn32Copt116Zzzz5Copt7Geor38ZzzzGeorZzzz5GeorZzzz2Tfng56Zzzz7" ++
  "Tfng2Zzzz14TfngEthi23Zzzz9Ethi7ZzzzEthi7ZzzzEthi7ZzzzEthi7ZzzzEthi7ZzzzEthi7ZzzzEthi7" ++
  "ZzzzEthi7ZzzzCyrl32Zyyy94Zzzz34Hani26ZzzzHani89Zzzz12Hani214Zzzz26Zyyy12Zzzz4Zyyy5Hani" ++
  "ZyyyHaniZyyy25Hani9Zinh4Hang2Zyyy8Hani4Zyyy4ZzzzHira86Zzzz2Zinh2Zyyy2Hira3ZyyyKana90" ++
  "Zyyy2Kana3Zzzz5Bopo43ZzzzHang94ZzzzZyyy16Bopo32Zyyy36Zzzz12Kana16Hang31ZzzzZyyy64Hang31" ++
  "Zyyy81Kana47ZyyyKana88Zyyy168Hani6592Zyyy64Hani20992Yiii1165Zzzz3Yiii55Zzzz9Lisu48" ++
  "Vaii300Zzzz20Cyrl96Bamu88Zzzz8Zyyy34Latn102Zyyy3Latn64Zzzz5Latn2ZzzzLatnZzzzLatn5Zzzz24" ++
  "Latn14Sylo45Zzzz3Zyyy10Zzzz6Phag56Zzzz8Saur70Zzzz8Saur12Zzzz6Deva32Kali46ZyyyKaliRjng36" ++
  "Zzzz11RjngHang29Zzzz3Java78ZzzzZyyyJava10Zzzz4Java2Mymr31ZzzzCham55Zzzz9Cham14Zzzz2" ++
  "Cham10Zzzz2Cham4Mymr32Tavt67Zzzz24Tavt5Mtei23Zzzz10Ethi6Zzzz2Ethi6Zzzz2Ethi6Zzzz9Ethi7" ++
  "ZzzzEthi7ZzzzLatn43ZyyyLatn9GrekLatn4Zyyy2Zzzz4Cher80Mtei46Zzzz2Mtei10Zzzz6Hang11172" ++
  "Zzzz12Hang23Zzzz4Hang49Zzzz8452Hani366Zzzz2Hani106Zzzz38Latn7Zzzz12Armn5Zzzz5Hebr26Zzzz" ++
  "Hebr5ZzzzHebrZzzzHebr2ZzzzHebr2ZzzzHebr10Arab115Zzzz16Arab363Zyyy2Arab80Zzzz2Arab54Zzzz7" ++
  "ArabZzzz32Arab16Zinh16Zyyy10Zzzz6Zinh14Cyrl2Zyyy35ZzzzZyyy19ZzzzZyyy4Zzzz4Arab5Zzzz" ++
  "Arab135Zzzz2ZyyyZzzzZyyy32Latn26Zyyy6Latn26Zyyy11Kana10ZyyyKana45Zyyy2Hang31Zzzz3Hang6" ++
  "Zzzz2Hang6Zzzz2Hang6Zzzz2Hang3Zzzz3Zyyy7ZzzzZyyy7Zzzz10Zyyy5Zzzz2Linb12ZzzzLinb26Zzzz" ++
  "Linb19ZzzzLinb2ZzzzLinb15Zzzz2Linb14Zzzz34Linb123Zzzz5Zyyy3Zzzz4Zyyy45Zzzz3Zyyy9Grek79" ++
  "ZzzzZyyy13Zzzz3GrekZzzz47Zyyy45ZinhZzzz130Lyci29Zzzz3Cari49Zzzz15ZinhZyyy27Zzzz4Ital36" ++
  "Zzzz9Ital3Goth27Zzzz5Perm43Zzzz5Ugar30ZzzzUgarXpeo36Zzzz4Xpeo14Zzzz42Dsrt80Shaw48Osma30" ++
  "Zzzz2Osma10Zzzz6Osge36Zzzz4Osge36Zzzz4Elba40Zzzz8Aghb52Zzzz11AghbVith11ZzzzVith15Zzzz" ++
  "Vith7ZzzzVith2ZzzzVith11ZzzzVith15ZzzzVith7ZzzzVith2Zzzz67Lina311Zzzz9Lina22Zzzz10Lina8" ++
  "Zzzz24Latn6ZzzzLatn42ZzzzLatn9Zzzz69Cprt6Zzzz2CprtZzzzCprt44ZzzzCprt2Zzzz3CprtZzzz2Cprt" ++
  "Armi22ZzzzArmi9Palm32Nbat31Zzzz8Nbat9Zzzz48Hatr19ZzzzHatr2Zzzz5Hatr5Phnx28Zzzz3Phnx" ++
  "Lydi26Zzzz5LydiZzzz64Mero32Merc24Zzzz4Merc20Zzzz2Merc46Khar4ZzzzKhar2Zzzz5Khar8ZzzzKhar3" ++
  "ZzzzKhar29Zzzz2Khar3Zzzz4Khar10Zzzz7Khar9Zzzz7Sarb32Narb32Zzzz32Mani39Zzzz4Mani12Zzzz9" ++
  "Avst54Zzzz3Avst7Prti22Zzzz2Prti8Phli19Zzzz5Phli8Phlp18Zzzz7Phlp4Zzzz12Phlp7Zzzz80Orkh73" ++
  "Zzzz55Hung51Zzzz13Hung51Zzzz7Hung6Rohg40Zzzz8Rohg10Zzzz294Arab31ZzzzYezi42ZzzzYezi3Zzzz2" ++
  "Yezi2Zzzz75Arab3Sogo40Zzzz8Sogd42Zzzz22Ougr26Zzzz38Chrs28Zzzz20Elym23Zzzz9Brah78Zzzz4" ++
  "Brah36Zzzz9BrahKthi67Zzzz10KthiZzzz2Sora25Zzzz7Sora10Zzzz6Cakm53ZzzzCakm18Zzzz8Mahj39" ++
  "Zzzz9Shrd96ZzzzSinh20Zzzz11Khoj18ZzzzKhoj47Zzzz62Mult7ZzzzMultZzzzMult4ZzzzMult15Zzzz" ++
  "Mult11Zzzz6Sind59Zzzz5Sind10Zzzz6Gran4ZzzzGran8Zzzz2Gran2Zzzz2Gran22ZzzzGran7ZzzzGran2" ++
  "ZzzzGran5ZzzzZinhGran9Zzzz2Gran2Zzzz2Gran3Zzzz2GranZzzz6GranZzzz5Gran7Zzzz2Gran7Zzzz3" ++
  "Gran5Zzzz139Newa92ZzzzNewa5Zzzz30Tirh72Zzzz8Tirh10Zzzz166Sidd54Zzzz2Sidd38Zzzz34Modi69" ++
  "Zzzz11Modi10Zzzz6Mong13Zzzz19Takr58Zzzz6Takr10Zzzz54Ahom27Zzzz2Ahom15Zzzz4Ahom23Zzzz185" ++
  "Dogr60Zzzz100Wara83Zzzz12WaraDiak7Zzzz2DiakZzzz2Diak8ZzzzDiak2ZzzzDiak30ZzzzDiak2Zzzz2" ++
  "Diak12Zzzz9Diak10Zzzz70Nand8Zzzz2Nand46Zzzz2Nand11Zzzz27Zanb72Zzzz8Soyo83Zzzz13Cans16" ++
  "Pauc57Zzzz7Deva10Zzzz246Bhks9ZzzzBhks45ZzzzBhks14Zzzz10Bhks29Zzzz3Marc32Zzzz2Marc22Zzzz" ++
  "Marc14Zzzz73Gonm7ZzzzGonm2ZzzzGonm44Zzzz3GonmZzzzGonm2ZzzzGonm9Zzzz8Gonm10Zzzz6Gong6Zzzz" ++
  "Gong2ZzzzGong37ZzzzGong2ZzzzGong6Zzzz7Gong10Zzzz310Maka25Zzzz7Kawi17ZzzzKawi41Zzzz3" ++
  "Kawi28Zzzz86LisuZzzz15Taml50Zzzz13TamlXsux922Zzzz102Xsux111ZzzzXsux5Zzzz11Xsux196" ++
  "Zzzz2636Cpmn99Zzzz13Egyp1110Zzzz4010Hluw583Zzzz8633Bamu569Zzzz7Mroo31ZzzzMroo10Zzzz4" ++
  "Mroo2Tnsa79ZzzzTnsa10Zzzz6Bass30Zzzz2Bass6Zzzz10Hmng70Zzzz10Hmng10ZzzzHmng7ZzzzHmng21" ++
  "Zzzz5Hmng19Zzzz688Medf91Zzzz101Plrd75Zzzz4Plrd57Zzzz7Plrd17Zzzz64TangNshuHani2KitsZzzz11" ++
  "Hani2Zzzz14Tang6136Zzzz8Tang768Kits470Zzzz42Tang9Zzzz8935Kana4ZzzzKana7ZzzzKana2ZzzzKana" ++
  "Hira287Kana3Zzzz15HiraZzzz29Hira3Zzzz2KanaZzzz14Kana4Zzzz8Nshu396Zzzz2308Dupl107Zzzz5" ++
  "Dupl13Zzzz3Dupl9Zzzz7Dupl10Zzzz2Dupl4Zyyy4Zzzz4700Zinh46Zzzz2Zinh23Zzzz9Zyyy116Zzzz60" ++
  "Zyyy246Zzzz10Zyyy39Zzzz2Zyyy62Zinh3Zyyy17Zinh8Zyyy2Zinh7Zyyy30Zinh4Zyyy61Zzzz21Grek70" ++
  "Zzzz122Zyyy20Zzzz12Zyyy20Zzzz12Zyyy87Zzzz9Zyyy25Zzzz135Zyyy85ZzzzZyyy71ZzzzZyyy2Zzzz2" ++
  "ZyyyZzzz2Zyyy2Zzzz2Zyyy4ZzzzZyyy12ZzzzZyyyZzzzZyyy7ZzzzZyyy65ZzzzZyyy4Zzzz2Zyyy8Zzzz" ++
  "Zyyy7ZzzzZyyy28ZzzzZyyy4ZzzzZyyy5ZzzzZyyyZzzz3Zyyy7ZzzzZyyy340Zzzz2Zyyy292Zzzz2Zyyy50" ++
  "Sgnw652Zzzz15Sgnw5ZzzzSgnw15Zzzz1104Latn31Zzzz6Latn6Zzzz213Glag7ZzzzGlag17Zzzz2Glag7Zzzz" ++
  "Glag2ZzzzGlag5Zzzz5Cyrl62Zzzz33CyrlZzzz112Hmnp45Zzzz3Hmnp14Zzzz2Hmnp10Zzzz4Hmnp2Zzzz320" ++
  "Toto31Zzzz17Wcho58Zzzz5WchoZzzz464Nagm42Zzzz742Ethi7ZzzzEthi4ZzzzEthi2ZzzzEthi15Zzzz" ++
  "Mend197Zzzz2Mend16Zzzz41Adlm76Zzzz4Adlm10Zzzz4Adlm2Zzzz785Zyyy68Zzzz76Zyyy61Zzzz194Arab4" ++
  "ZzzzArab27ZzzzArab2ZzzzArabZzzz2ArabZzzzArab10ZzzzArab4ZzzzArabZzzzArabZzzz6ArabZzzz4" ++
  "ArabZzzzArabZzzzArabZzzzArab3ZzzzArab2ZzzzArabZzzz2ArabZzzzArabZzzzArabZzzzArabZzzzArab" ++
  "ZzzzArab2ZzzzArabZzzz2Arab4ZzzzArab7ZzzzArab4ZzzzArab4ZzzzArabZzzzArab10ZzzzArab17Zzzz5" ++
  "Arab3ZzzzArab5ZzzzArab17Zzzz52Arab2Zzzz270Zyyy44Zzzz4Zyyy100Zzzz12Zyyy15Zzzz2Zyyy15Zzzz" ++
  "Zyyy15ZzzzZyyy37Zzzz10Zyyy174Zzzz56Zyyy26HiraZyyy2Zzzz13Zyyy44Zzzz4Zyyy9Zzzz7Zyyy2Zzzz14" ++
  "Zyyy6Zzzz154Zyyy984Zzzz4Zyyy17Zzzz3Zyyy13Zzzz3Zyyy119Zzzz4Zyyy95Zzzz6Zyyy12Zzzz4Zyyy" ++
  "Zzzz15Zyyy12Zzzz4Zyyy56Zzzz8Zyyy10Zzzz6Zyyy40Zzzz8Zyyy30Zzzz2Zyyy2Zzzz78Zyyy340Zzzz12" ++
  "Zyyy14Zzzz2Zyyy13Zzzz3Zyyy9Zzzz7Zyyy46ZzzzZyyy7Zzzz8Zyyy14Zzzz4Zyyy9Zzzz7Zyyy9Zzzz7" ++
  "Zyyy147ZzzzZyyy55Zzzz37Zyyy10Zzzz1030Hani42720Zzzz32Hani4154Zzzz6Hani222Zzzz2Hani5762" ++
  "Zzzz14Hani7473Zzzz3103Hani542Zzzz1506Hani4939Zzzz5Hani4192Zzzz711761ZyyyZzzz30Zyyy96" ++
  "Zzzz128Zinh240Zzzz196112Zzzz"

/-- Reads `scriptText`: the runs that are over, and the code and the length of the one that is
being read. -/
structure ScriptReader where
  runs : List (Nat × Nat × List Char)
  start : Nat
  code : List Char
  digits : Nat

namespace ScriptReader

/-- Ends the run that is being read. -/
def close (r : ScriptReader) : ScriptReader :=
  let next := r.start + max r.digits 1
  ⟨(r.start, next - 1, r.code) :: r.runs, next, [], 0⟩

def read (r : ScriptReader) (c : Char) : ScriptReader :=
  if c.isDigit then { r with digits := r.digits * 10 + (c.toNat - '0'.toNat) }
  else if c.isUpper && !r.code.isEmpty then { r.close with code := [c] }
  else { r with code := r.code ++ [c] }

end ScriptReader

def scriptRanges (code : String) : List (Nat × Nat) :=
  let runs := (scriptText.toList.foldl ScriptReader.read ⟨[], 0, [], 0⟩).close.runs
  (runs.filter fun run => run.2.2 = code.toList).reverse.map fun run => (run.1, run.2.1)

/-- Ranges of characters, with the codes of all scripts that they are used with. -/
def scriptExtensions : List (Nat × Nat × String) :=
  [(0x342, 0x342, "Grek"), (0x345, 0x345, "Grek"), (0x363, 0x36F, "Latn"),
    (0x483, 0x483, "Cyrl Perm"), (0x484, 0x484, "Cyrl Glag"), (0x485, 0x486, "Cyrl Latn"),
    (0x487, 0x487, "Cyrl Glag"), (0x60C, 0x60C, "Arab Nkoo Rohg Syrc Thaa Yezi"),
    (0x61B, 0x61B, "Arab Nkoo Rohg Syrc Thaa Yezi"), (0x61C, 0x61C, "Arab Syrc Thaa"),
    (0x61F, 0x61F, "Adlm Arab Nkoo Rohg Syrc Thaa Yezi"),
    (0x640, 0x640, "Adlm Arab Mand Mani Ougr Phlp Rohg Sogd Syrc"), (0x64B, 0x655, "Arab Syrc"),
    (0x660, 0x669, "Arab Thaa Yezi"), (0x670, 0x670, "Arab Syrc"), (0x6D4, 0x6D4, "Arab Rohg"),
    (0x951, 0x951, "Beng Deva Gran Gujr Guru Knda Latn Mlym Orya Shrd Taml Telu Tirh"),
    (0x952, 0x952, "Beng Deva Gran Gujr Guru Knda Latn Mlym Orya Taml Telu Tirh"),
    (0x964, 0x964,
      "Beng Deva Dogr Gong Gonm Gran Gujr Guru Knda Mahj Mlym Nand Orya Sind Sinh Sylo Takr " ++
        "Taml Telu Tirh"),
    (0x965, 0x965,
      "Beng Deva Dogr Gong Gonm Gran Gujr Guru Knda Limb Mahj Mlym Nand Orya Sind Sinh Sylo " ++
        "Takr Taml Telu Tirh"),
    (0x966, 0x96F, "Deva Dogr Kthi Mahj"), (0x9E6, 0x9EF, "Beng Cakm Sylo"),
    (0xA66, 0xA6F, "Guru Mult"), (0xAE6, 0xAEF, "Gujr Khoj"), (0xBE6, 0xBF3, "Gran Taml"),
    (0xCE6, 0xCEF, "Knda Nand"), (0x1040, 0x1049, "Cakm Mymr Tale"),
    (0x10FB, 0x10FB, "Geor Latn"), (0x1735, 0x1736, "Buhd Hano Tagb Tglg"),
    (0x1802, 0x1803, "Mong Phag"), (0x1805, 0x1805, "Mong Phag"),
    (0x1CD0, 0x1CD0, "Beng Deva Gran Knda"), (0x1CD1, 0x1CD1, "Deva"),
    (0x1CD2, 0x1CD2, "Beng Deva Gran Knda"), (0x1CD3, 0x1CD3, "Deva Gran"),
    (0x1CD4, 0x1CD4, "Deva"), (0x1CD5, 0x1CD6, "Beng Deva"), (0x1CD7, 0x1CD7, "Deva Shrd"),
    (0x1CD8, 0x1CD8, "Beng Deva"), (0x1CD9, 0x1CD9, "Deva Shrd"),
    (0x1CDA, 0x1CDA, "Deva Knda Mlym Orya Taml Telu"), (0x1CDB, 0x1CDB, "Deva"),
    (0x1CDC, 0x1CDD, "Deva Shrd"), (0x1CDE, 0x1CDF, "Deva"), (0x1CE0, 0x1CE0, "Deva Shrd"),
    (0x1CE1, 0x1CE1, "Beng Deva"), (0x1CE2, 0x1CE8, "Deva"), (0x1CE9, 0x1CE9, "Deva Nand"),
    (0x1CEA, 0x1CEA, "Beng Deva"), (0x1CEB, 0x1CEC, "Deva"), (0x1CED, 0x1CED, "Beng Deva"),
    (0x1CEE, 0x1CF1, "Deva"), (0x1CF2, 0x1CF2, "Beng Deva Gran Knda Nand Orya Telu Tirh"),
    (0x1CF3, 0x1CF3, "Deva Gran"), (0x1CF4, 0x1CF4, "Deva Gran Knda"),
    (0x1CF5, 0x1CF6, "Beng Deva"), (0x1CF7, 0x1CF7, "Beng"), (0x1CF8, 0x1CF9, "Deva Gran"),
    (0x1CFA, 0x1CFA, "Nand"), (0x1DC0, 0x1DC1, "Grek"), (0x1DF8, 0x1DF8, "Cyrl Syrc"),
    (0x1DFA, 0x1DFA, "Syrc"), (0x202F, 0x202F, "Latn Mong"), (0x20F0, 0x20F0, "Deva Gran Latn"),
    (0x2E43, 0x2E43, "Cyrl Glag"), (0x3001, 0x3002, "Bopo Hang Hani Hira Kana Yiii"),
    (0x3003, 0x3003, "Bopo Hang Hani Hira Kana"), (0x3006, 0x3006, "Hani"),
    (0x3008, 0x3011, "Bopo Hang Hani Hira Kana Yiii"),
    (0x3013, 0x3013, "Bopo Hang Hani Hira Kana"),
    (0x3014, 0x301B, "Bopo Hang Hani Hira Kana Yiii"),
    (0x301C, 0x301F, "Bopo Hang Hani Hira Kana"), (0x302A, 0x302D, "Bopo Hani"),
    (0x3030, 0x3030, "Bopo Hang Hani Hira Kana"), (0x3031, 0x3035, "Hira Kana"),
    (0x3037, 0x3037, "Bopo Hang Hani Hira Kana"), (0x303C, 0x303D, "Hani Hira Kana"),
    (0x303E, 0x303F, "Hani"), (0x3099, 0x309C, "Hira Kana"), (0x30A0, 0x30A0, "Hira Kana"),
    (0x30FB, 0x30FB, "Bopo Hang Hani Hira Kana Yiii"), (0x30FC, 0x30FC, "Hira Kana"),
    (0x3190, 0x319F, "Hani"), (0x31C0, 0x31E3, "Hani"), (0x3220, 0x3247, "Hani"),
    (0x3280, 0x32B0, "Hani"), (0x32C0, 0x32CB, "Hani"), (0x32FF, 0x32FF, "Hani"),
    (0x3358, 0x3370, "Hani"), (0x337B, 0x337F, "Hani"), (0x33E0, 0x33FE, "Hani"),
    (0xA66F, 0xA66F, "Cyrl Glag"), (0xA700, 0xA707, "Hani Latn"),
    (0xA830, 0xA832, "Deva Dogr Gujr Guru Khoj Knda Kthi Mahj Mlym Modi Nand Sind Takr Tirh"),
    (0xA833, 0xA835, "Deva Dogr Gujr Guru Khoj Knda Kthi Mahj Modi Nand Sind Takr Tirh"),
    (0xA836, 0xA839, "Deva Dogr Gujr Guru Khoj Kthi Mahj Modi Sind Takr Tirh"),
    (0xA8F1, 0xA8F1, "Beng Deva"), (0xA8F3, 0xA8F3, "Deva Taml"),
    (0xA92E, 0xA92E, "Kali Latn Mymr"), (0xA9CF, 0xA9CF, "Bugi Java"),
    (0xFD3E, 0xFD3F, "Arab Nkoo"), (0xFDF2, 0xFDF2, "Arab Thaa"), (0xFDFD, 0xFDFD, "Arab Thaa"),
    (0xFE45, 0xFE46, "Bopo Hang Hani Hira Kana"),
    (0xFF61, 0xFF65, "Bopo Hang Hani Hira Kana Yiii"), (0xFF70, 0xFF70, "Hira Kana"),
    (0xFF9E, 0xFF9F, "Hira Kana"), (0x10100, 0x10101, "Cpmn Cprt Linb"),
    (0x10102, 0x10102, "Cprt Linb"), (0x10107, 0x10133, "Cprt Lina Linb"),
    (0x10137, 0x1013F, "Cprt Linb"), (0x102E0, 0x102FB, "Arab Copt"),
    (0x10AF2, 0x10AF2, "Mani Ougr"), (0x11301, 0x11301, "Gran Taml"),
    (0x11303, 0x11303, "Gran Taml"), (0x1133B, 0x1133C, "Gran Taml"),
    (0x11FD0, 0x11FD1, "Gran Taml"), (0x11FD3, 0x11FD3, "Gran Taml"), (0x1BCA0, 0x1BCA3, "Dupl"),
    (0x1D360, 0x1D371, "Hani"), (0x1F250, 0x1F251, "Hani")]

def usesScript (code : String) : Nat → Bool :=
  let own := scriptRanges code
  fun c =>
    match scriptExtensions.find? fun entry => entry.1 ≤ c && c ≤ entry.2.1 with
    | some (_, _, codes) => (codes.splitOn " ").contains code
    | none => inRanges own c

end ColumnPlan.Unicode
