import ColumnPlan.Text.Unicode.Property

/-!
# Properties that a character has or has not

A property is given by the lengths of the runs of characters without it and with it in turn, from
`U+0000` on; behind the last run no character has it.  A length up to 26 is written as a letter,
any other in decimal before a semicolon.

* `runText? name`        the runs of a property, by its name in lower case without joiners;
* `boundaries text`      where the runs end;
* `inRuns bounds c`      whether a character lies in a run with the property;
* `binaryTest? name`     the property of a name.
-/

namespace ColumnPlan.Unicode

def runText? (name : String) : Option String :=
  match name with
  | "bidicontrol" | "bidic" => some (
    "1564;a6641;bze55;d")
  | "bidimirrored" | "bidim" => some (
    "40;braaa28;aaa29;aaa45;aoa3710;d1885;b2460;bjb54;bnb177;a192;dcfcacbcdadaaaadieaaredibaa" ++
    "ahb31;bdeaibbsebiebbdxbphdtbgb1085;n74;abdabacedeccn403;vbfanhagfcadeabbedaacbbjfbblsadb" ++
    "aaabaadebfcxbkbddabbbd43;bha40;eaaaceecdaceaa256;a515;dcbabnbbj43;h427;jbh52797;feb162;b" ++
    "raaa28;aaa29;aaaabab55159;a57;a57;a57;a57;a")
  | "caseignorable" | "ci" => some (
    "39;afaka35;aaa71;adaaadabb503;192;dbdaibaa251;g207;aea49;45;aaababaa44;akfjkaa35;ajupa" ++
    "101;hajad33;aaa30;27;91;k58;kdabaxx43;c44;agbfh41;58;55;aaadhdacgjbmaoa58;addhatbzabb57;" ++
    "adbdbbcca30;bcakb57;adeabdatbvfaa58;abaadhagbkb30;a61;ala50;aca55;aacecadgbkb29;a58;abaf" ++
    "aebtb28;b57;bddhatb29;a72;agcaa90;abgki98;abiiaag73;b27;aaaaa55;naeabeka36;ia102;dafabbb" ++
    "ybdcpdmabbfaoa94;a608;c946;c29;b30;b30;b64;baghabkcaea45;e51;a65;b34;a118;cdbiafc219;bba" ++
    "58;aagaaaabhfjba39;ah31;49;d48;aaeaaea40;ilb32;dbbac56;aabcaac58;hbb64;f82;camagdafacb" ++
    "50;63;ma34;101;445;aackcmcmcmblehbjababe49;eajaamapm51;33;2955;b113;c125;aoa96;32;47;a" ++
    "469;a36;dceea93;f93;c28438;a1250;f270;a98;dajaa28;d80;bn34;78;awc103;ccbhacadaybea151;bz" ++
    "rma38;hyk46;c48;abdbbqaub66;fbbbblaha35;aka51;aacbbebaa27;anbebaa100;eic121;abada20272;a" ++
    "147;q573;pcalp34;aba169;agafaka35;aaa47;a45;b67;auc513;a226;a149;e1029;fa42;ai582;cabed" ++
    "40;cda165;b573;d387;b80;c70;k49;d123;a54;o41;abbjc49;dbbbadaja50;c36;eah62;alb52;ijdba" ++
    "95;cbaabfaba157;achub57;bca37;gce195;hbcaawa84;faadbab238;dfbab27;b85;hbaab106;aaabfaa" ++
    "101;cbdae259;iab256;baada144;dbbda32;j40;fbdhaifbc46;mab406;gafaa82;vbgabab122;fcaabagaa" ++
    "72;bcaaa347;bkb52;eeaaa5357;qfo13978;e59;gid1035;a63;q64;bab16395;dagab3230;bad4700;46;b" ++
    "w544;cipbg30;d148;c1979;55;d50;hanaveao1360;gaqbgabaee62;33;a160;n368;a61;d507;e992;g" ++
    "109;h2735;e789505;a30;96;128;240;")
  | "changeswhencasefolded" | "cwcf" => some (
    "65;z90;ajwah32;aaaaaaaaaaaaaaaaaaaaaaaaaaaaaaaaaaaaaaaaaaaaaaaaaaaaaaabaaaaaaaaaaaaaaaab" ++
    "aaaaaaaaaaaaaaaaaaaaaaaaaaaaaaaaaaaaaaaaaaaaabaaaaaaabaaabacbdabaccbabaaaaabaabaabacaaab" ++
    "cagbababaaaaaaaaaaaaaaaabaaaaaaaaaaaaaaaaabbaaacaaaaaaaaaaaaaaaaaaaaaaaaaaaaaaaaaaaaaaaa" ++
    "aaaaaaaaaaaaaaaaaagbabbaadaaaaaaaa246;a42;aaacahafaacaaabaqaivalccbaaaaaaaaaaaaaaaaaaaaa" ++
    "aaaabbbaaabb51;48;aaaaaaaaaaaaaaaaaaaaaaaaaaaaaaaaaiaaaaaaaaaaaaaaaaaaaaaaaaaaaaaaaaaaaa" ++
    "aaaaaaaaaaaaaaaaaabaaaaaaaaaaaabaaaaaaaaaaaaaaaaaaaaaaaaaaaaaaaaaaaaaaaaaaaaaaaaaaaaaaaa" ++
    "aaaaaaaaaaaaaaaaaaaaaaaaaaaaaaaaaaaaaaab38;48;a2840;38;aaea810;f2178;ig43;bc320;aaaaaaaa" ++
    "aaaaaaaaaaaaaaaaaaaaaaaaaaaaaaaaaaaaaaaaaaaaaaaaaaaaaaaaaaaaaaaaaaaaaaaaaaaaaaaaaaaaaaaa" ++
    "aaaaaaaaaaaaaaaaaaaaaaaaaaaaaaaaaaaaaaaaaaaaaaaaaaaaaebbaaaaaaaaaaaaaaaaaaaaaaaaaaaaaaaa" ++
    "aaaaaaaaaaaaaaaaaaaaaaaaaaaaaaaaaaaaaaaaaaaaaaaaaaaaaaaaaaaaaaaaaihhfjhhhhfkaaaaaaahhp" ++
    "48;bcbfecbfkdleecbf297;acbfa45;psa818;z1840;48;48;aacbaaaaaadaabahcaaaaaaaaaaaaaaaaaaaaa" ++
    "aaaaaaaaaaaaaaaaaaaaaaaaaaaaaaaaaaaaaaaaaaaaaaaaaaaaaaaaaaaaaaaaaaaaaaaaaaaaahaaada" ++
    "31053;aaaaaaaaaaaaaaaaaaaaaaaaaaaaaaaaaaaaaaaaaaaaasaaaaaaaaaaaaaaaaaaaaaaaaaaa135;aaaaa" ++
    "aaaaaaaacaaaaaaaaaaaaaaaaaaaaaaaaaaaaaaaaaaaaaaaaaaaaaaaaaaaaaaaaaaaaajaaaabaaaaaaaadaaa" ++
    "baaacaaaaaaaaaaaaaaaaaaaaeaeaaaaaaaaaaaaaaadaafaeaaa28;a890;80;20288;gle1033;z1221;40;" ++
    "136;36;156;kaoagab1770;51;3053;32;21888;32;31392;34;")
  | "changeswhencasemapped" | "cwcm" => some (
    "65;zfz58;ajwa31;a64;a84;amanbnbbaad93;arf27;abaaabcbaaabaebaabbagabaabcfeajb166;a42;dbbc" ++
    "caafaacaaata47;c33;aea133;h166;a38;j39;2840;38;aaeab43;bc672;86;bf2178;ig43;bc185;acapa" ++
    "113;156;baa118;bfb38;bfbhaaaaaaa31;b53;agaaccagcdbfdmecag297;acbfa27;aq32;cb817;52;1814;" ++
    "113;ababg102;gdcbl38;aaea30994;46;r28;134;nb62;ioccbeaya27;ebdd27;b860;a28;80;20288;gle" ++
    "1033;zfz1189;80;96;36;d36;116;kaoagabakaoagab1731;51;m51;2989;64;21856;64;31360;68;")
  | "changeswhenlowercased" | "cwl" => some (
    "65;z101;wag33;aaaaaaaaaaaaaaaaaaaaaaaaaaaaaaaaaaaaaaaaaaaaaaaaaaaaaaabaaaaaaaaaaaaaaabaa" ++
    "aaaaaaaaaaaaaaaaaaaaaaaaaaaaaaaaaaaaaaaaaaaabaaaacbaaabacbdabaccbabaaaaabaabaabacaaabcag" ++
    "bababaaaaaaaaaaaaaaaabaaaaaaaaaaaaaaaaabbaaacaaaaaaaaaaaaaaaaaaaaaaaaaaaaaaaaaaaaaaaaaaa" ++
    "aaaaaaaaaaaaaaagbabbaadaaaaaaaa289;aaacahafaacaaabaqai35;ahaaaaaaaaaaaaaaaaaaaaaaaeabaab" ++
    "b51;48;aaaaaaaaaaaaaaaaaaaaaaaaaaaaaaaaaiaaaaaaaaaaaaaaaaaaaaaaaaaaaaaaaaaaaaaaaaaaaaaaa" ++
    "aaaaaaabaaaaaaaaaaaabaaaaaaaaaaaaaaaaaaaaaaaaaaaaaaaaaaaaaaaaaaaaaaaaaaaaaaaaaaaaaaaaaaa" ++
    "aaaaaaaaaaaaaaaaaaaaaaaaaaaab38;2889;38;aaea722;86;2202;43;bc320;aaaaaaaaaaaaaaaaaaaaaaa" ++
    "aaaaaaaaaaaaaaaaaaaaaaaaaaaaaaaaaaaaaaaaaaaaaaaaaaaaaaaaaaaaaaaaaaaaaaaaaaaaaaaaaaaaaaaa" ++
    "aaaaaaaaaaaaaaaaaaaaaaaaaaaaaaaaaaaaaaiaaaaaaaaaaaaaaaaaaaaaaaaaaaaaaaaaaaaaaaaaaaaaaaaa" ++
    "aaaaaaaaaaaaaaaaaaaaaaaaaaaaaaaaaaaaaaaaaaaaaaaaihhfjhhhhfkaaaaaaahhxhhhhhhekekdleke297;" ++
    "acbfa45;psa818;z1840;48;48;aacbaaaaaadaabahcaaaaaaaaaaaaaaaaaaaaaaaaaaaaaaaaaaaaaaaaaaaa" ++
    "aaaaaaaaaaaaaaaaaaaaaaaaaaaaaaaaaaaaaaaaaaaaaaaaaaaaaahaaada31053;aaaaaaaaaaaaaaaaaaaaaa" ++
    "aaaaaaaaaaaaaaaaaaaaaaasaaaaaaaaaaaaaaaaaaaaaaaaaaa135;aaaaaaaaaaaaacaaaaaaaaaaaaaaaaaaa" ++
    "aaaaaaaaaaaaaaaaaaaaaaaaaaaaaaaaaaaaaaaaaajaaaabaaaaaaaadaaabaaacaaaaaaaaaaaaaaaaaaaaeae" ++
    "aaaaaaaaaaaaaaadaafaeaaa28;a22315;z1221;40;136;36;156;kaoagab1770;51;3053;32;21888;32;" ++
    "31392;34;")
  | "changeswhentitlecased" | "cwt" => some (
    "97;z58;a41;xahaaaaaaaaaaaaaaaaaaaaaaaaaaaaaaaaaaaaaaaaaaaaaaaaaaaaaaaabaaaaaaaaaaaaaabaa" ++
    "aaaaaaaaaaaaaaaaaaaaaaaaaaaaaaaaaaaaaaaaaaaabaaaacbaaabacaeabacbcabaaaaabadabacaaabacaaa" ++
    "daababaaaaaaaaaaaaaaaaabaaaaaaaaaaaaaaaaacaaaacaaaaaaaaaaaaaaaaaaaaaaaaaaaaaaaaaaaaaaaca" ++
    "aaaaaaaaaaaaaaaahabbaadaaaaaaaafabaaabcbaaabaebaabbagabaabcfeajb166;a43;aaacaccra27;35;a" ++
    "bccaaaaaaaaaaaaaaaaaaaaaaaeaababa52;48;aaaaaaaaaaaaaaaaaaaaaaaaaaaaaaaaaaiaaaaaaaaaaaaaa" ++
    "aaaaaaaaaaaaaaaaaaaaaaaaaaaaaaaaaaaaaaabaaaaaaaaaaaabaaaaaaaaaaaaaaaaaaaaaaaaaaaaaaaaaaa" ++
    "aaaaaaaaaaaaaaaaaaaaaaaaaaaaaaaaaaaaaaaaaaaaaaaaaaaaaaaaaaaaa49;39;3696;f2178;i240;acapa" ++
    "114;aaaaaaaaaaaaaaaaaaaaaaaaaaaaaaaaaaaaaaaaaaaaaaaaaaaaaaaaaaaaaaaaaaaaaaaaaaaaaaaaaaaa" ++
    "aaaaaaaaaaaaaaaaaaaaaaaaaaaaaaaaaaaaaaaaaaaaaaaaaaaaaaaaaaaaaaaageaaaaaaaaaaaaaaaaaaaaaa" ++
    "aaaaaaaaaaaaaaaaaaaaaaaaaaaaaaaaaaaaaaaaaaaaaaaaaaaaaaaaaaaaaaaaaaaaaaaaihfjhhhhfjhhhhnb" ++
    "hhhhhheabfaccabhdbbhhjcab342;a33;pda843;z1862;48;aacbaaaaaafabajaaaaaaaaaaaaaaaaaaaaaaaa" ++
    "aaaaaaaaaaaaaaaaaaaaaaaaaaaaaaaaaaaaaaaaaaaaaaaaaaaaaaaaaaaaaaaaaaaaaaaaaaahaaadal38;aae" ++
    "a30995;aaaaaaaaaaaaaaaaaaaaaaaaaaaaaaaaaaaaaaaaaaaaasaaaaaaaaaaaaaaaaaaaaaaaaaaa135;aaaa" ++
    "aaaaaaaaacaaaaaaaaaaaaaaaaaaaaaaaaaaaaaaaaaaaaaaaaaaaaaaaaaaaaaaaaaaaaajaaabaaaaaaaaadad" ++
    "aabbaaaaaaaaaaaaaaaaaaakaaaaaaaaaaaaaaadaaafaeaaa28;a860;a28;80;20288;gle1065;z1229;40;" ++
    "136;36;155;kaoagab1795;51;3021;32;21888;32;31394;34;")
  | "changeswhenuppercased" | "cwu" => some (
    "97;z58;a41;xahaaaaaaaaaaaaaaaaaaaaaaaaaaaaaaaaaaaaaaaaaaaaaaaaaaaaaaaabaaaaaaaaaaaaaabaa" ++
    "aaaaaaaaaaaaaaaaaaaaaaaaaaaaaaaaaaaaaaaaaaaabaaaacbaaabacaeabacbcabaaaaabadabacaaabacaaa" ++
    "ebababaaaaaaaaaaaaaaabaaaaaaaaaaaaaaaaababaacaaaaaaaaaaaaaaaaaaaaaaaaaaaaaaaaaaaaaaacaaa" ++
    "aaaaaaaaaaaaaahabbaadaaaaaaaafabaaabcbaaabaebaabbagabaabcfeajb166;a43;aaacaccra27;35;abc" ++
    "caaaaaaaaaaaaaaaaaaaaaaaeaababa52;48;aaaaaaaaaaaaaaaaaaaaaaaaaaaaaaaaaaiaaaaaaaaaaaaaaaa" ++
    "aaaaaaaaaaaaaaaaaaaaaaaaaaaaaaaaaaaaabaaaaaaaaaaaabaaaaaaaaaaaaaaaaaaaaaaaaaaaaaaaaaaaaa" ++
    "aaaaaaaaaaaaaaaaaaaaaaaaaaaaaaaaaaaaaaaaaaaaaaaaaaaaaaaaaaa49;39;2888;43;bc760;f2178;i" ++
    "240;acapa114;aaaaaaaaaaaaaaaaaaaaaaaaaaaaaaaaaaaaaaaaaaaaaaaaaaaaaaaaaaaaaaaaaaaaaaaaaaa" ++
    "aaaaaaaaaaaaaaaaaaaaaaaaaaaaaaaaaaaaaaaaaaaaaaaaaaaaaaaaaaaaaaaaaaaaaaaaageaaaaaaaaaaaaa" ++
    "aaaaaaaaaaaaaaaaaaaaaaaaaaaaaaaaaaaaaaaaaaaaaaaaaaaaaaaaaaaaaaaaaaaaaaaaaaaaaaaaaihfjhhh" ++
    "hfjhhhhnb53;abdaaaccabdacdbbhhjcabda337;a33;pda843;z1862;48;aacbaaaaaafabajaaaaaaaaaaaaa" ++
    "aaaaaaaaaaaaaaaaaaaaaaaaaaaaaaaaaaaaaaaaaaaaaaaaaaaaaaaaaaaaaaaaaaaaaaaaaaaaaaaaaaaaaaha" ++
    "aadal38;aaea30995;aaaaaaaaaaaaaaaaaaaaaaaaaaaaaaaaaaaaaaaaaaaaasaaaaaaaaaaaaaaaaaaaaaaaa" ++
    "aaa135;aaaaaaaaaaaaacaaaaaaaaaaaaaaaaaaaaaaaaaaaaaaaaaaaaaaaaaaaaaaaaaaaaaaaaaaaaajaaaba" ++
    "aaaaaaaadadaabbaaaaaaaaaaaaaaaaaaakaaaaaaaaaaaaaaadaaafaeaaa28;a860;a28;80;20288;gle" ++
    "1065;z1229;40;136;36;155;kaoagab1795;51;3021;32;21888;32;31394;34;")
  | "dash" => some (
    "45;a1372;a51;a3649;a1029;a2057;f61;a39;aoa390;a3076;aba31;bda28;a446;asa111;a52624;b37;a" ++
    "ja169;a3999;a")
  | "defaultignorablecodepoint" | "di" => some (
    "173;a673;a716;a2882;b1619;b85;e2043;eze49;p4340;a52379;p239;a160;a79;i48295;d5327;h" ++
    "798341;4096;")
  | "deprecated" | "dep" => some (
    "329;a1321;a2307;aaa2089;b2245;f697;b908502;a")
  | "diacritic" | "dia" => some (
    "94;aaa71;afadabb503;159;ahefqbdaib253;e209;a55;qa27;aaabaa134;hdb134;bdbcc67;27;91;k58;k" ++
    "34;b126;h41;jp28;61;apacd28;a74;apa110;apa110;apa47;c60;apaga119;a110;apa110;apa109;bpa" ++
    "124;a124;faa107;ame75;b27;aaaaadb66;cab62;a112;aab40;bdeygaajb705;c948;b179;kia347;c313;" ++
    "hba48;obk104;aoa38;i54;b138;b64;f82;ydafabc50;63;89;l37;k445;aackcmcmcmb3312;c317;a506;f" ++
    "105;d95;a30066;albaa28;b82;bn34;102;c109;b202;a27;r57;d36;a95;ala36;a149;c65;d51;a100;ei" ++
    "c128;b20272;a769;p270;aaa47;a45;b67;a764;a1183;fa42;ai810;b571;f469;c70;k49;d192;a41;a" ++
    "72;b120;b62;a76;aic104;b178;b81;apaxgce205;aca123;b251;b126;a118;b115;a269;b258;bda156;a" ++
    "83;ara81;a421;a258;aab81;a5807;o13978;e59;g1112;q80;b16382;dagab7937;46;bw544;ccfhhbg30;" ++
    "d3714;62;194;g375;a61;d1504;g109;cac")
  | "emoji" => some (
    "35;afaej111;ada8077;ala216;ava90;fob367;bla166;aykdc199;a231;bjaia58;daeiababbbadabaabba" ++
    "cacbhceaaaelkbbaabaarabbrfaaabcbeabbdbkbebbaebaaabtbefadbadababfaabaaaaafacafajboabadaaa" ++
    "dcaakb48;cianana372;b463;csb51;ada1242;ala601;aaa114026;a202;a160;blbnabj75;zabwatabiub" ++
    "174;34;b112;bbacb83;bca263;a63;kfaxgbbhlabdbadbmbbahbiaeclchcbaaadafacaf86;48;70;ehbcdjc" ++
    "aabcabj227;lda283;47;aja185;112;mcig46;aghndigi")
  | "emojicomponent" | "ecomp" => some (
    "35;afaej8147;a213;a56619;a62422;z507;e1456;d788076;96;")
  | "emojimodifierbase" | "ebase" => some (
    "9757;a219;apd117879;a60;cbabc117;bbkuscadcacgaaaxa201;bdauadb174;cce83;apciaka575;abahhf" ++
    "aijbc56;a61;babaaqcam229;c42;i")
  | "emojipresentation" | "epres" => some (
    "8986;b205;dcaba521;bub50;l43;asamahbqbebhaeauagbaadabagadb28;a35;aaadcaa61;cxana859;b51;" ++
    "ada115886;a202;a190;abj75;zaaxatabeacub174;33;lia70;avl43;delqcac71;aaa187;b63;mdaxrazbm" ++
    "a86;85;48;70;faccbcddkbgi227;lda283;47;aja185;112;mcig46;aghndigi")
  | "extendedpictographic" | "extpict" => some (
    "169;ada8077;ala216;ava90;fob367;bla95;a70;aykdc199;a231;bjaia58;dafala114;j118;bkaaaafac" ++
    "afajboabadaaadcaake45;cianana372;b463;csb51;ada1242;ala601;aaa114022;256;mc31;a60;flbnab" ++
    "jr57;27;ojatabiadi434;e318;h266;48;128;116;l85;43;ld56;hjf40;h30;82;l47;aja441;256;1022;")
  | "extender" | "ext" => some (
    "183;a536;b878;a441;a858;a752;a127;a2371;a56;a611;a398;a68;a5001;a43;e103;b93;c28438;a" ++
    "1526;a962;ava137;a108;aub21627;a2064;b3034;a616;c1231;a20649;b1180;baa29016;b2054;c")
  | "idsbinaryoperator" | "idsb" => some (
    "12272;bbh")
  | "idstrinaryoperator" | "idst" => some (
    "12274;b")
  | "ideographic" | "ideo" => some (
    "12294;byinc965;6592;64;20992;22784;366;b106;29962;a27;6136;h1238;42;i9319;396;19716;" ++
    "42720;32;4154;f222;b5762;n7473;3103;542;1506;4939;e4192;")
  | "logicalorderexception" | "loe" => some (
    "3648;e123;e2800;cba37114;bbaab")
  | "math" => some (
    "43;apc31;a29;aaa45;ada37;a31;a728;cbazbbc527;c6669;a27;ckacamandueke65;mdacbderadabjaabf" ++
    "facbbbacafcnaa68;xafabdbd32;aafbn268;hdtb90;a30;27;aaxakg445;bljdfdbbbcenaaabfkheb57;aaa" ++
    "29;dic336;64;256;512;48;ubf53212;a823;faa162;apc29;aaa29;aaa131;afd54291;85;a71;abbabbbd" ++
    "alaaaga65;adbhaga28;adaeaacga340;b292;b50;5632;da27;abaabaajadaaaafadaaaaaacabaabaaaaaaa" ++
    "aaabaabdagadadaaajaqecaeaq52;b")
  | "noncharactercodepoint" | "nchar" => some (
    "64976;32;526;b65534;b65534;b65534;b65534;b65534;b65534;b65534;b65534;b65534;b65534;b" ++
    "65534;b65534;b65534;b65534;b65534;b65534;b")
  | "patternsyntax" | "patsyn" => some (
    "33;ojgzdaazd34;gaaabaaabdadacawa31;a7960;xhobsaj305;720;160;630;30;1132;512;128;385;cdyo" ++
    "a52493;b261;b")
  | "patternwhitespace" | "patws" => some (
    "iera100;a8072;bxb")
  | "prependedconcatenationmark" | "pcm" => some (
    "1536;f215;a49;a384;b80;a67546;aoa")
  | "quotationmark" | "qmark" => some (
    "34;ada131;aoa8028;hyb3591;a457;dmc52769;d189;ada90;b")
  | "radical" => some (
    "11904;za89;l214;")
  | "sentenceterminal" | "sterm" => some (
    "33;alapa1353;a147;c180;a43;c246;a61;aaacb293;b1764;b790;adb773;a198;b204;aea314;b354;d" ++
    "174;bbb29;b188;b65;b956;bic3556;amavb429;a29948;a270;b227;aca382;b86;b95;a152;b147;c144;" ++
    "b249;a21094;acb169;alapa65;a2804;b1277;e44;d189;b117;d127;c129;bfapb88;bab108;a417;b373;" ++
    "beo105;b249;c517;aaa251;b87;b420;b692;b74;b19241;b133;a65;bka851;a19974;a7656;a")
  | "softdotted" | "sd" => some (
    "105;b196;a281;a30;a52;ata320;a98;aaa6409;a51;amaca132;a157;a421;a214;b2866;a108453;b50;b" ++
    "50;b50;b50;b50;b50;b50;b50;b50;b50;b50;b50;b2182;a305;bza")
  | "terminalpunctuation" | "term" => some (
    "33;ajaaakbca830;aha513;a57;a72;anaac180;a43;kaa235;b54;o31;a261;b1268;b172;adf311;b789;h" ++
    "773;a124;c71;b157;cca39;dbb314;b354;d174;bac29;b188;e62;b956;bic3556;amadajaabcb428;b" ++
    "29947;b269;c227;e382;b86;b95;a151;c147;c127;apb249;a21092;cad169;ajaaakbca65;aba1082;a" ++
    "48;a1158;a199;a310;b152;f68;f89;d952;e44;d189;g112;d127;c129;bfapb88;e108;a417;clb358;dc" ++
    "o105;b249;c517;aaa251;b87;bdb414;c45;a645;b74;b1323;e17913;b133;a65;cja850;b19974;a7655;" ++
    "d")
  | "unifiedideograph" | "uideo" => some (
    "13312;6592;64;20992;23054;baaabjaaaabbc67030;42720;32;4154;f222;b5762;n7473;5151;4939;e" ++
    "4192;")
  | "variationselector" | "vs" => some (
    "6155;caa58864;p852720;240;")
  | _ => none

/-- Reads run lengths: the ends of the runs so far, and the digits of a length being read. -/
structure LengthReader where
  ends : Array Nat
  last : Nat
  digits : Nat

namespace LengthReader

def push (r : LengthReader) (length : Nat) : LengthReader :=
  ⟨r.ends.push (r.last + length), r.last + length, 0⟩

def read (r : LengthReader) (c : Char) : LengthReader :=
  if c.isDigit then { r with digits := r.digits * 10 + (c.toNat - '0'.toNat) }
  else if c = ';' then r.push r.digits
  else r.push (c.toNat - 'a'.toNat + 1)

end LengthReader

def boundaries (text : String) : Array Nat :=
  (text.toList.foldl LengthReader.read ⟨#[], 0, 0⟩).ends

/-- The number of boundaries up to `c`, which lies between `low` and `high`. -/
def countUpTo (bounds : Array Nat) (c : Nat) : Nat → Nat → Nat → Nat
  | 0, low, _ => low
  | steps + 1, low, high =>
    if high ≤ low then low
    else
      let middle := (low + high) / 2
      if bounds.getD middle 0 ≤ c then countUpTo bounds c steps (middle + 1) high
      else countUpTo bounds c steps low middle

/-- Runs without and with the property take turns. -/
def inRuns (bounds : Array Nat) (c : Nat) : Bool :=
  countUpTo bounds c (bounds.size + 1) 0 bounds.size % 2 = 1

/-! ### identifiers and graphemes -/

def isPatternSyntax (c : Nat) : Bool :=
  (runText? "patternsyntax").any fun text => inRuns (boundaries text) c

def isIdentifierStart (c : Nat) : Bool :=
  ((category c).isLetter || category c = .nl ||
    inRanges [(0x1885, 0x1886), (0x2118, 0x2118), (0x212E, 0x212E), (0x309B, 0x309C)] c) &&
    !isPatternSyntax c

def isIdentifierPart (c : Nat) : Bool :=
  isIdentifierStart c || category c = .mn || category c = .mc || category c = .nd ||
    category c = .pc ||
    inRanges [(0xB7, 0xB7), (0x387, 0x387), (0x1369, 0x1371), (0x19DA, 0x19DA)] c

/-- Characters whose compatibility forms are no identifiers. -/
def breaksNormalStart (c : Nat) : Bool :=
  inRanges
    [(0x37A, 0x37A), (0xE33, 0xE33), (0xEB3, 0xEB3), (0x309B, 0x309C), (0xFC5E, 0xFC63),
      (0xFDFA, 0xFDFB), (0xFE70, 0xFE70), (0xFE72, 0xFE72), (0xFE74, 0xFE74), (0xFE76, 0xFE76),
      (0xFE78, 0xFE78), (0xFE7A, 0xFE7A), (0xFE7C, 0xFE7C), (0xFE7E, 0xFE7E), (0xFF9E, 0xFF9F)] c

def breaksNormalPart (c : Nat) : Bool :=
  inRanges
    [(0x37A, 0x37A), (0x309B, 0x309C), (0xFC5E, 0xFC63), (0xFDFA, 0xFDFB), (0xFE70, 0xFE70),
      (0xFE72, 0xFE72), (0xFE74, 0xFE74), (0xFE76, 0xFE76), (0xFE78, 0xFE78), (0xFE7A, 0xFE7A),
      (0xFE7C, 0xFE7C), (0xFE7E, 0xFE7E)] c

def isGraphemeBase (c : Nat) : Bool :=
  match category c with
  | .cc | .cf | .cs | .co | .cn | .zl | .zp => false
  | _ => !isGraphemeExtender c

/-! ### properties by name -/

def binaryTest? (name : String) : Option (Nat → Bool) :=
  match name with
  | "alphabetic" | "alpha" => some isAlphabetic
  | "uppercase" | "upper" => some isUppercase
  | "lowercase" | "lower" => some isLowercase
  | "cased" => some fun c => isUppercase c || isLowercase c || category c = .lt
  | "whitespace" | "wspace" | "space" => some isWhiteSpace
  | "graphemeextend" | "grext" => some isGraphemeExtender
  | "graphemebase" | "grbase" => some isGraphemeBase
  | "idstart" | "ids" => some isIdentifierStart
  | "idcontinue" | "idc" => some isIdentifierPart
  | "xidstart" | "xids" => some fun c => isIdentifierStart c && !breaksNormalStart c
  | "xidcontinue" | "xidc" => some fun c => isIdentifierPart c && !breaksNormalPart c
  | "asciihexdigit" | "ahex" => some (inRanges [(0x30, 0x39), (0x41, 0x46), (0x61, 0x66)])
  | "hexdigit" | "hex" =>
    some (inRanges [(0x30, 0x39), (0x41, 0x46), (0x61, 0x66), (0xFF10, 0xFF19), (0xFF21, 0xFF26),
      (0xFF41, 0xFF46)])
  | "joincontrol" | "joinc" => some (inRanges [(0x200C, 0x200D)])
  | "regionalindicator" | "ri" => some (inRanges [(0x1F1E6, 0x1F1FF)])
  | "emojimodifier" | "emod" => some (inRanges [(0x1F3FB, 0x1F3FF)])
  | name =>
    (runText? name).map fun text =>
      let bounds := boundaries text
      inRuns bounds

end ColumnPlan.Unicode
