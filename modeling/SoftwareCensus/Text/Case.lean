import SoftwareCensus.Text.Category
import SoftwareCensus.Numeral.Decimal

/-!
# Letter case

Upper and lower case of text in all scripts, and the classes of characters that differ only in
case. The tables hold runs `gap:count:stride:shift`: after a gap, `count` characters at a distance
of `stride` are mapped by adding `shift`.
-/

namespace SoftwareCensus.Text

/-- A run of characters that are mapped by one shift. -/
structure CaseRun where
  first : Nat
  count : Nat
  stride : Nat
  shift : Int
  deriving Inhabited

/-- Reads the runs of a table. -/
private def readCaseRuns (table : List String) : Array CaseRun :=
  let entries := table.flatMap fun line => line.splitOn " "
  let step (acc : Nat × Array CaseRun) (entry : String) : Nat × Array CaseRun :=
    match entry.splitOn ":" with
    | [gap, count, stride, shift] =>
      let first := acc.1 + gap.toNat?.getD 0
      (first, acc.2.push ⟨first, count.toNat?.getD 0, stride.toNat?.getD 1, shift.toInt?.getD 0⟩)
    | _ => acc
  (entries.foldl step (0, #[])).2

/-- Lower-case partners. -/
private def lowerTable : List String := [
  "65:26:1:32 127:23:1:32 24:7:1:32 40:24:2:1 50:3:2:1 7:8:2:1 17:23:2:1 46:1:1:-121 1:3:2:1",
  "8:1:1:210 1:2:2:1 4:1:1:206 1:1:1:1 2:2:1:205 2:1:1:1 3:1:1:79 1:1:1:202 1:1:1:203 1:1:1:1",
  "2:1:1:205 1:1:1:207 2:1:1:211 1:1:1:209 1:1:1:1 4:1:1:211 1:1:1:213 2:1:1:214 1:3:2:1",
  "6:1:1:218 1:1:1:1 2:1:1:218 3:1:1:1 2:1:1:218 1:1:1:1 2:2:1:217 2:2:2:1 4:1:1:219 1:1:1:1",
  "4:1:1:1 8:1:1:2 1:1:1:1 2:1:1:2 1:1:1:1 2:1:1:2 1:9:2:1 19:9:2:1 19:1:1:2 1:2:2:1 4:1:1:-97",
  "1:1:1:-56 1:20:2:1 40:1:1:-130 2:9:2:1 24:1:1:10795 1:1:1:1 2:1:1:-163 1:1:1:10792 3:1:1:1",
  "2:1:1:-195 1:1:1:69 1:1:1:71 1:5:2:1 298:2:2:1 6:1:1:1 9:1:1:116 7:1:1:38 2:3:1:37 4:1:1:64",
  "2:2:1:63 3:17:1:32 18:9:1:32 44:1:1:8 9:12:2:1 28:1:1:-60 3:1:1:1 2:1:1:-7 1:1:1:1",
  "3:3:1:-130 3:16:1:80 16:32:1:32 80:17:2:1 42:27:2:1 54:1:1:15 1:7:2:1 15:48:2:1 97:38:1:48",
  "2927:38:1:7264 39:1:1:7264 6:1:1:7264 723:80:1:38864 80:6:1:8 2208:43:1:-3008 45:3:1:-3008",
  "323:75:2:1 158:1:1:-7615 2:48:2:1 104:8:1:-8 16:6:1:-8 16:8:1:-8 16:8:1:-8 16:6:1:-8",
  "17:4:2:-8 15:8:1:-8 32:8:1:-8 16:8:1:-8 16:8:1:-8 16:2:1:-8 2:2:1:-74 2:1:1:-9 12:4:1:-86",
  "4:1:1:-9 12:2:1:-8 2:2:1:-100 14:2:1:-8 2:2:1:-112 2:1:1:-7 12:2:1:-128 2:2:1:-126 2:1:1:-9",
  "298:1:1:-7517 4:1:1:-8383 1:1:1:-8262 7:1:1:28 46:16:1:16 35:1:1:1 819:26:1:26 1866:48:1:48",
  "96:1:1:1 2:1:1:-10743 1:1:1:-3814 1:1:1:-10727 3:3:2:1 6:1:1:-10780 1:1:1:-10749",
  "1:1:1:-10783 1:1:1:-10782 2:1:1:1 3:1:1:1 9:2:1:-10815 2:50:2:1 107:2:2:1 7:1:1:1",
  "31054:23:2:1 64:14:2:1 162:7:2:1 16:31:2:1 71:2:2:1 4:1:1:-35332 1:5:2:1 13:1:1:1",
  "2:1:1:-42280 3:2:2:1 6:10:2:1 20:1:1:-42308 1:1:1:-42319 1:1:1:-42315 1:1:1:-42305",
  "1:1:1:-42308 2:1:1:-42258 1:1:1:-42282 1:1:1:-42261 1:1:1:928 1:8:2:1 16:1:1:-48",
  "1:1:1:-42307 1:1:1:-35384 1:2:2:1 9:1:1:1 6:2:2:1 31:1:1:1 22316:26:1:32 1247:40:1:40",
  "176:36:1:40 192:11:1:39 12:15:1:39 16:7:1:39 8:2:1:39 1772:51:1:64 3104:32:1:32",
  "21920:32:1:32 31424:34:1:34"]

/-- Upper-case partners. -/
private def upperTable : List String := [
  "97:26:1:-32 84:1:1:743 43:23:1:-32 24:7:1:-32 7:1:1:121 2:24:2:-1 48:1:1:-232 2:3:2:-1",
  "7:8:2:-1 17:23:2:-1 47:3:2:-1 5:1:1:-300 1:1:1:195 3:2:2:-1 5:1:1:-1 4:1:1:-1 6:1:1:-1",
  "3:1:1:97 4:1:1:-1 1:1:1:163 4:1:1:130 3:3:2:-1 7:1:1:-1 5:1:1:-1 3:1:1:-1 4:2:2:-1 5:1:1:-1",
  "4:1:1:-1 2:1:1:56 6:1:1:-1 1:1:1:-2 2:1:1:-1 1:1:1:-2 2:1:1:-1 1:1:1:-2 2:8:2:-1 15:1:1:-79",
  "2:9:2:-1 19:1:1:-1 1:1:1:-2 2:1:1:-1 4:20:2:-1 42:9:2:-1 25:1:1:-1 3:2:1:10815 3:1:1:-1",
  "5:5:2:-1 9:1:1:10783 1:1:1:10780 1:1:1:10782 1:1:1:-210 1:1:1:-206 2:2:1:-205 3:1:1:-202",
  "2:1:1:-203 1:1:1:42319 4:1:1:-205 1:1:1:42315 2:1:1:-207 2:1:1:42280 1:1:1:42308 2:1:1:-209",
  "1:1:1:-211 1:1:1:42308 1:1:1:10743 1:1:1:42305 3:1:1:-211 2:1:1:10749 1:1:1:-213 3:1:1:-214",
  "8:1:1:10727 3:1:1:-218 2:1:1:42307 1:1:1:-218 4:1:1:42282 1:1:1:-218 1:1:1:-69 1:2:1:-217",
  "2:1:1:-71 6:1:1:-219 11:1:1:42261 1:1:1:42258 167:1:1:84 44:2:2:-1 6:1:1:-1 4:3:1:130",
  "49:1:1:-38 1:3:1:-37 4:17:1:-32 17:1:1:-31 1:9:1:-32 9:1:1:-64 1:2:1:-63 3:1:1:-62 1:1:1:-57",
  "4:1:1:-47 1:1:1:-54 1:1:1:-8 2:12:2:-1 23:1:1:-86 1:1:1:-80 1:1:1:7 1:1:1:-116 2:1:1:-96",
  "3:1:1:-1 3:1:1:-1 53:32:1:-32 32:16:1:-80 17:17:2:-1 42:27:2:-1 55:7:2:-1 13:1:1:-15",
  "2:48:2:-1 144:38:1:-48 2927:43:1:3008 45:3:1:3008 763:6:1:-8 2184:1:1:-6254 1:1:1:-6253",
  "1:1:1:-6244 1:2:1:-6242 2:1:1:-6243 1:1:1:-6236 1:1:1:-6181 1:1:1:35266 241:1:1:35332",
  "4:1:1:3814 17:1:1:35384 115:75:2:-1 154:1:1:-59 6:48:2:-1 95:8:1:8 16:6:1:8 16:8:1:8",
  "16:8:1:8 16:6:1:8 17:4:2:8 15:8:1:8 16:2:1:74 2:4:1:86 4:2:1:100 2:2:1:128 2:2:1:112",
  "2:2:1:126 52:2:1:8 14:1:1:-7205 18:2:1:8 16:2:1:8 5:1:1:7 361:1:1:-28 34:16:1:-16 20:1:1:-1",
  "844:26:1:-26 1888:48:1:-48 49:1:1:-1 4:1:1:-10795 1:1:1:-10792 2:3:2:-1 11:1:1:-1 3:1:1:-1",
  "11:50:2:-1 107:2:2:-1 7:1:1:-1 13:38:1:-7264 39:1:1:-7264 6:1:1:-7264 30996:23:2:-1",
  "64:14:2:-1 162:7:2:-1 16:31:2:-1 71:2:2:-1 5:5:2:-1 13:1:1:-1 5:2:2:-1 3:1:1:48 3:10:2:-1",
  "30:8:2:-1 19:2:2:-1 9:1:1:-1 6:2:2:-1 31:1:1:-1 861:1:1:-928 29:80:1:-38864 21457:26:1:-32",
  "1255:40:1:-40 176:36:1:-40 191:11:1:-39 12:15:1:-39 16:7:1:-39 8:2:1:-39 1797:51:1:-64",
  "3072:32:1:-32 21920:32:1:-32 31426:34:1:-34"]

/-- Partners for comparisons without regard to case. -/
private def foldTable : List String := [
  "65:26:1:32 116:1:1:775 11:23:1:32 24:7:1:32 40:24:2:1 50:3:2:1 7:8:2:1 17:23:2:1 46:1:1:-121",
  "1:3:2:1 6:1:1:-268 2:1:1:210 1:2:2:1 4:1:1:206 1:1:1:1 2:2:1:205 2:1:1:1 3:1:1:79 1:1:1:202",
  "1:1:1:203 1:1:1:1 2:1:1:205 1:1:1:207 2:1:1:211 1:1:1:209 1:1:1:1 4:1:1:211 1:1:1:213",
  "2:1:1:214 1:3:2:1 6:1:1:218 1:1:1:1 2:1:1:218 3:1:1:1 2:1:1:218 1:1:1:1 2:2:1:217 2:2:2:1",
  "4:1:1:219 1:1:1:1 4:1:1:1 8:1:1:2 1:1:1:1 2:1:1:2 1:1:1:1 2:1:1:2 1:9:2:1 19:9:2:1 19:1:1:2",
  "1:2:2:1 4:1:1:-97 1:1:1:-56 1:20:2:1 40:1:1:-130 2:9:2:1 24:1:1:10795 1:1:1:1 2:1:1:-163",
  "1:1:1:10792 3:1:1:1 2:1:1:-195 1:1:1:69 1:1:1:71 1:5:2:1 255:1:1:116 43:2:2:1 6:1:1:1",
  "9:1:1:116 7:1:1:38 2:3:1:37 4:1:1:64 2:2:1:63 3:17:1:32 18:9:1:32 31:1:1:1 13:1:1:8",
  "1:1:1:-30 1:1:1:-25 4:1:1:-15 1:1:1:-22 2:12:2:1 24:1:1:-54 1:1:1:-48 3:1:1:-60 1:1:1:-64",
  "2:1:1:1 2:1:1:-7 1:1:1:1 3:3:1:-130 3:16:1:80 16:32:1:32 80:17:2:1 42:27:2:1 54:1:1:15",
  "1:7:2:1 15:48:2:1 97:38:1:48 2927:38:1:7264 39:1:1:7264 6:1:1:7264 811:6:1:-8 2184:1:1:-6222",
  "1:1:1:-6221 1:1:1:-6212 1:2:1:-6210 2:1:1:-6211 1:1:1:-6204 1:1:1:-6180 1:1:1:35267",
  "8:43:1:-3008 45:3:1:-3008 323:75:2:1 155:1:1:-58 3:1:1:-7615 2:48:2:1 104:8:1:-8 16:6:1:-8",
  "16:8:1:-8 16:8:1:-8 16:6:1:-8 17:4:2:-8 15:8:1:-8 32:8:1:-8 16:8:1:-8 16:8:1:-8 16:2:1:-8",
  "2:2:1:-74 2:1:1:-9 2:1:1:-7173 10:4:1:-86 4:1:1:-9 7:1:1:-7235 5:2:1:-8 2:2:1:-100",
  "9:1:1:-7219 5:2:1:-8 2:2:1:-112 2:1:1:-7 12:2:1:-128 2:2:1:-126 2:1:1:-9 298:1:1:-7517",
  "4:1:1:-8383 1:1:1:-8262 7:1:1:28 46:16:1:16 35:1:1:1 819:26:1:26 1866:48:1:48 96:1:1:1",
  "2:1:1:-10743 1:1:1:-3814 1:1:1:-10727 3:3:2:1 6:1:1:-10780 1:1:1:-10749 1:1:1:-10783",
  "1:1:1:-10782 2:1:1:1 3:1:1:1 9:2:1:-10815 2:50:2:1 107:2:2:1 7:1:1:1 31054:23:2:1 64:14:2:1",
  "162:7:2:1 16:31:2:1 71:2:2:1 4:1:1:-35332 1:5:2:1 13:1:1:1 2:1:1:-42280 3:2:2:1 6:10:2:1",
  "20:1:1:-42308 1:1:1:-42319 1:1:1:-42315 1:1:1:-42305 1:1:1:-42308 2:1:1:-42258 1:1:1:-42282",
  "1:1:1:-42261 1:1:1:928 1:8:2:1 16:1:1:-48 1:1:1:-42307 1:1:1:-35384 1:2:2:1 9:1:1:1 6:2:2:1",
  "31:1:1:1 891:80:1:-38864 20373:1:1:1 1052:26:1:32 1247:40:1:40 176:36:1:40 192:11:1:39",
  "12:15:1:39 16:7:1:39 8:2:1:39 1772:51:1:64 3104:32:1:32 21920:32:1:32 31424:34:1:34"]

/-- Characters whose upper case is more than one character. -/
private def upperExpansionTable : List String := [
  "df=53+53 149=2bc+4e 1f0=4a+30c 390=399+308+301 3b0=3a5+308+301 587=535+552 1e96=48+331",
  "1e97=54+308 1e98=57+30a 1e99=59+30a 1e9a=41+2be 1f50=3a5+313 1f52=3a5+313+300",
  "1f54=3a5+313+301 1f56=3a5+313+342 1f80=1f08+399 1f81=1f09+399 1f82=1f0a+399 1f83=1f0b+399",
  "1f84=1f0c+399 1f85=1f0d+399 1f86=1f0e+399 1f87=1f0f+399 1f88=1f08+399 1f89=1f09+399",
  "1f8a=1f0a+399 1f8b=1f0b+399 1f8c=1f0c+399 1f8d=1f0d+399 1f8e=1f0e+399 1f8f=1f0f+399",
  "1f90=1f28+399 1f91=1f29+399 1f92=1f2a+399 1f93=1f2b+399 1f94=1f2c+399 1f95=1f2d+399",
  "1f96=1f2e+399 1f97=1f2f+399 1f98=1f28+399 1f99=1f29+399 1f9a=1f2a+399 1f9b=1f2b+399",
  "1f9c=1f2c+399 1f9d=1f2d+399 1f9e=1f2e+399 1f9f=1f2f+399 1fa0=1f68+399 1fa1=1f69+399",
  "1fa2=1f6a+399 1fa3=1f6b+399 1fa4=1f6c+399 1fa5=1f6d+399 1fa6=1f6e+399 1fa7=1f6f+399",
  "1fa8=1f68+399 1fa9=1f69+399 1faa=1f6a+399 1fab=1f6b+399 1fac=1f6c+399 1fad=1f6d+399",
  "1fae=1f6e+399 1faf=1f6f+399 1fb2=1fba+399 1fb3=391+399 1fb4=386+399 1fb6=391+342",
  "1fb7=391+342+399 1fbc=391+399 1fc2=1fca+399 1fc3=397+399 1fc4=389+399 1fc6=397+342",
  "1fc7=397+342+399 1fcc=397+399 1fd2=399+308+300 1fd3=399+308+301 1fd6=399+342",
  "1fd7=399+308+342 1fe2=3a5+308+300 1fe3=3a5+308+301 1fe4=3a1+313 1fe6=3a5+342",
  "1fe7=3a5+308+342 1ff2=1ffa+399 1ff3=3a9+399 1ff4=38f+399 1ff6=3a9+342 1ff7=3a9+342+399",
  "1ffc=3a9+399 fb00=46+46 fb01=46+49 fb02=46+4c fb03=46+46+49 fb04=46+46+4c fb05=53+54",
  "fb06=53+54 fb13=544+546 fb14=544+535 fb15=544+53b fb16=54e+546 fb17=544+53d"]

/-- The runs of `lowerTable`. -/
private def lowerRuns : Array CaseRun := readCaseRuns lowerTable

/-- The runs of `upperTable`. -/
private def upperRuns : Array CaseRun := readCaseRuns upperTable

/-- The runs of `foldTable`. -/
private def foldRuns : Array CaseRun := readCaseRuns foldTable

/-- The number that hexadecimal digits spell. -/
private def hexOf (s : String) : Nat := (Numeral.ofDigitsBase? 16 s.toList).getD 0

/-- The entries of `upperExpansionTable`. -/
private def upperExpansions : List (Nat × List Char) :=
  (upperExpansionTable.flatMap fun line => line.splitOn " ").filterMap fun entry =>
    match entry.splitOn "=" with
    | [code, chars] => some (hexOf code, (chars.splitOn "+").map fun h => Char.ofNat (hexOf h))
    | _ => none

/-- Maps a code point by the run that holds it, if any. -/
private def mapCode (runs : Array CaseRun) (code : Nat) : Nat :=
  match runs.find? fun r =>
      r.first ≤ code && code ≤ r.first + (r.count - 1) * r.stride &&
        (code - r.first) % r.stride == 0 with
  | some r => (code + r.shift).toNat
  | none => code

/-- The lower case of a character, which may be more than one. -/
def lowerChar (c : Char) : List Char :=
  if c.toNat < 0x80 then [c.toLower]
  else if c.toNat == 0x130 then ['i', Char.ofNat 0x307]
  else [Char.ofNat (mapCode lowerRuns c.toNat)]

/-- The upper case of a character, which may be more than one. -/
def upperChar (c : Char) : List Char :=
  if c.toNat < 0x80 then [c.toUpper]
  else match upperExpansions.find? (·.1 == c.toNat) with
    | some (_, cs) => cs
    | none => [Char.ofNat (mapCode upperRuns c.toNat)]

/-! ## Texts -/

/-- The upper case of a text. -/
def upper (s : String) : String := String.ofList (s.toList.flatMap upperChar)

/-- Whether a character has case. -/
private def isCased (c : Char) : Bool :=
  lowercase.contains c || uppercase.contains c || (0x1c5 ≤ c.toNat && c.toNat ≤ 0x1f2)

/-- Whether the nearest character that is not passed over has case. -/
private def startsCased (cs : List Char) : Bool :=
  match cs.dropWhile caseIgnorable.contains with
  | [] => false
  | c :: _ => isCased c

/-- Lower case, where a capital sigma that ends a word becomes a final sigma. The first argument
is what has been read, in reverse. -/
private def lowerFrom (before : List Char) : List Char → List Char
  | [] => []
  | c :: rest =>
    let mapped :=
      if c.toNat == 0x3a3 then
        if startsCased before && !startsCased rest then [Char.ofNat 0x3c2] else [Char.ofNat 0x3c3]
      else lowerChar c
    mapped ++ lowerFrom (c :: before) rest

/-- The lower case of a text. -/
def lower (s : String) : String := String.ofList (lowerFrom [] s.toList)

/-- The lower case of the letters of the basic alphabet; all else stays. -/
def asciiLower (s : String) : String := s.map Char.toLower

/-! ## Classes of characters that differ only in case -/

/-- The code points of a run with what they are folded to. -/
private def CaseRun.pairs (r : CaseRun) : List (Nat × Nat) :=
  (List.range r.count).map fun i =>
    let code := r.first + i * r.stride
    (code, (code + r.shift).toNat)

/-- All code points that are folded to another, with their target. -/
private def foldPairs : List (Nat × Nat) := foldRuns.toList.flatMap CaseRun.pairs

/-- The characters equal to a code point but for case, itself included. -/
def caseClass (code : Nat) : List Nat :=
  let target := mapCode foldRuns code
  target :: (foldPairs.filter (·.2 == target)).map (·.1)

/-- The characters equal to a member of the set but for case. -/
def caseClosure (s : CharSet) : CharSet :=
  if s.size ≤ 8 then .ofRanges (s.codes.flatMap fun c => (caseClass c).map fun d => (d, d))
  else
    let touched := foldPairs.filter fun (c, t) => s.containsCode c || s.containsCode t
    let targets := touched.map (·.2)
    let added := foldPairs.filter fun (_, t) => targets.contains t
    .ofRanges (s.toList ++ targets.map (fun t => (t, t)) ++ added.map fun (c, _) => (c, c))

end SoftwareCensus.Text
