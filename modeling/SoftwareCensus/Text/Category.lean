import SoftwareCensus.Text.CharSet

/-!
# Character categories

The general category of every code point, and the classes built from it: letters, digits, words,
blanks, and what does not show in a quoted text. The table lists the categories of consecutive code
points as a letter and a run length; runs of length one leave the length out.
-/

namespace SoftwareCensus.Text

/-- The general categories, in the order of the letters of the table. -/
def categoryNames : List String :=
  ["Lu", "Ll", "Lt", "Lm", "Lo", "Mn", "Mc", "Me", "Nd", "Nl", "No", "Pc", "Pd", "Ps", "Pe",
   "Pi", "Pf", "Po", "Sm", "Sc", "Sk", "So", "Zs", "Zl", "Zp", "Cc", "Cf", "Cs", "Co", "Cn"]

/-- Runs of code points of one category, from zero on. -/
private def categoryTable : List String := [
  "Z32WR3TR3NORSRMR2I10R2S3R2A26NROULUB26NSOSZ33WRT4VRUVEPSaVUVSK2UBR2UKEQK3RA23SA7B24SB8ABABAB",
  "ABABABABABABABABABABABABABABABABABABABABABABABABAB2ABABABABABABABAB2ABABABABABABABABABABABAB",
  "ABABABABABABABABABABABA2BABAB3A2BABA2BA3B2A4BA2BA3B3A2BA2BABABA2BAB2ABA2BA3BABA2B2EAB3E4ACBA",
  "CBACBABABABABABABABAB2ABABABABABABABABAB2ACBABA3BABABABABABABABABABABABABABABABABABABABABABA",
  "BABABABABABABAB7A2BA2B2ABA4BABABABAB69EB27D18U4D12U14D5U7DUDU17F112ABABDUABd2DB3RAd4U2ARA3dA",
  "dA2BA17dA9B35AB2A3B3ABABABABABABABABABABABAB5ABSABA2B2A51B48ABABABABABABABABABABABABABABABAB",
  "ABVF5H2ABABABABABABABABABABABABABABABABABABABABABABABABABABABA2BABABABABABAB2ABABABABABABABA",
  "BABABABABABABABABABABABABABABABABABABABABABABABABABABABABABABABABABABABABABABABABdA38d2DR6B4",
  "1RMd2V2TdF45MFRF2RF2RFd8E27d4E4R2d11a6S3R2TR2V2F11RaR3E32DE10F21I10R4E2FE99REF7aVF6D2F2VF4E2",
  "I10E3V2ER14daEFE30F27d2E89F11Ed14I10E33F9D2VR3Dd2FT2E22F4DF9DF3DF5d2R15dE25F3d2RdE11d5E24UE6",
  "da2d6F8E41DF24aF32GE54FGFEG3F8G4FG2EF7E10F2R2I10RDE15FG2dE8d2E2d2E22dE7dEd3E4d2FEG3F4d2G2d2G",
  "2FEd8Gd4E2dE3F2d2I10E2T2K6VTERFd2F2GdE6d4E2d2E22dE7dE2dE2dE2d2FdG3F2d4F2d2F3d3Fd7E4dEd7I10F2",
  "E3FRd10F2GdE9dE3dE22dE7dE2dE5d2FEG3F5dF2GdG2Fd2Ed15E2F2d2I10RTd7EF6dFG2dE8d2E2d2E22dE7dE2dE5",
  "d2FEGFGF4d2G2d2G2Fd7F2Gd4E2dE3F2d2I10VEK6d10FEdE6d3E3dE4d3E2dEdE2d3E2d3E3d3E12d4G2FG2d3G3dG3",
  "Fd2Ed6Gd14I10K3V6TVd5FG3FE8dE3dE23dE16d2FEF3G4dF3dF4d7F2dE3d2Ed2E2F2d2I10d7RK7VEFG2RE8dE3dE2",
  "3dE10dE5d2FEGFG5dFG2dG2F2d7G2d6E2dE2F2d2I10dE2d13F2G2E9dE3dE41F2EG3F4dG3dG3FEVd4E3GK7E3F2d2I",
  "10K9VE6dFG2dE18d3E24dE9dEd2E7d3Fd4G3F3dFdG8d6I10d2G2Rd12E48FE2F7d4TE6DF8RI10R2d37E2dEdE5dE24",
  "dEdE10FE2F9Ed2E5dDdF6d2I10d2E4d32EV3R15VRV3F2V6I10K10VFVFVFNONOG2E8dE36d4F14GF5RF2E5F11dF36d",
  "V8FV6dV2R5V4R2d37E43G2F4GF6GF2G2F2EI10R6E6G2F2E4F3EG3E2G7E3F4E13FG2F2G6FEGI10G3FV2A38dAd5Ad2",
  "B43RDB3E329dE4d2E7dEdE4d2E41dE4d2E33dE4d2E7dEdE4d2E15dE57dE4d2E67d2F3R9K20d3E16V10d6A86d2B6d",
  "2ME620VRE17WE26NOd3E75R3J3E8d7E18F3Gd9E19F2GR2d9E18F2d12E13dE3dF2d12E52F2GF7G8FG2F11R3DR3TEF",
  "d2I10d6K10d6R6MR4F3aFI10d6E35DE53d7E5F2E34FEd5E70d10E31dF3G4F2G3d4G2FG6F3d4Vd3R2I10E30d2E5d1",
  "1E44d4E26d6I10Kd3V34E23F2G2Fd2R2E53GFGF7dFGFG2F8G6F10d2FI10d6I10d6R7DR6d2F14HF16d49F4GE47FGF",
  "5GFG5FG2E8d3I10R7V10F9V9R2dF2GE30GF4G2F2GF3E2I10E44FGF2G3FGF3G2d8R4E36G8F8G2F2d3R5I10d3E3I10",
  "E30D6R2B9d7A43d2A3R8d8F3RF13GF7E4FE6FE2GF2Ed5B44D63B13DB34D37F64ABABABABABABABABABABABABABAB",
  "ABABABABABABABABABABABABABABABABABABABABABABABABABABABABABABABABABABABABABABABABABABABABABAB",
  "ABABABABABABABABABABABABABABAB9ABABABABABABABABABABABABABABABABABABABABABABABABABABABABABABA",
  "BABABABABABABABABABABABABABABABABABAB9A8B6d2A6d2B8A8B8A8B6d2A6d2B8dAdAdAdAB8A8B14d2B8C8B8C8B",
  "8C8B5dB2A4CUBU3B3dB2A4CU3B4d2B2A4dU3B8A5U3d2B3dB2A4CU2dW11a5M6R2PQNP2QNPR8XYa5WR9PQR4L2R3SNO",
  "R11SRLR10Wa5da10KDd2K6S3NODK10S3NOdD13d3T33d15F13H4FH3F12d15V2AV4AV2BA3B2A3BVAV2SA5V6AVAVAVA",
  "4VBA4BE4BV2B2A2S5AB4VSV2BVK16J35ABJ4KV2d4S5V5S2V4SV2SV2SV7SV31S2V2SVSV31S268V8NONOV20S2V7NOV",
  "81SV30S25V40S6V69d25V11d21K60V78K22V183SV9SV54S8V111SV248NONONONONONONOK30V44S5NOS31NONONONO",
  "NOS16V256S131NONONONONONONONONONONOS63NONOS32NOS258V48S21V2S6V39d2V32dV105A48B48ABA3B2ABABAB",
  "A4BAB2AB6D2A3BABABABABABABABABABABABABABABABABABABABABABABABABABABABABABABABABABABABABABABAB",
  "ABABABABABABABABABAB2V6ABABF3ABd5R4KR2B38dBd5Bd2E56d7DRd14FE23d9E7dE7dE7dE7dE7dE7dE7dE7dF32R",
  "2PQPQR3PQRPQR9MR2MRPQR2PQNONONONOR5DR10M2R4MRNR13V2R3NONONONOMd34V26dV89d12V214d26V12d4WR3VD",
  "EJNONONONONOV2NONONONOMNO2VJ9F4G2MD5V2J3DERV2dE86d2F2U2D2EME90RD3Ed5E43dE94dV2K4V10E32V36d12",
  "E16V31dK10V30K8VK15V32K10V39K15V320E6592V64E21013DE1143d3V55d9E40D6R2E268DR3E16I10E2d20ABABA",
  "BABABABABABABABABABABABABABABABABABABABABEFH3RF10RDABABABABABABABABABABABABABABD2F2E70J10F2R",
  "6d8U23D9U2ABABABABABABAB3ABABABABABABABABABABABABABABABABABABABABABABABABABABABABABABABDB8AB",
  "ABA2BABABABABDU2ABABEABAB3ABABABABABABABABABABA5BA5BABABABABABABABA4BABd5ABdBdBABABd24D3ABED",
  "2BE7FE3FE4FE23G2F2GV4Fd3K6V2TVd6E52R4d8G2E50G16F2d8R2I10d6F18E6R3ERE2FI10E28F8R2E23F11G2d11R",
  "E29d3F3GE47FG2F4G2F2G3R13dDI10d4R2E5FDE9I10E5dE41F6G2F2G2F2d9E3FE8FGd2I10d2R4E16DE6V3EGFGE50",
  "FEF3E2F2E5F2EFEd24E2DR2E11GF2G2R2ED2GFd10E6d2E6d2E6d9E7dE7dB43UD4B9DU2d4B80E35G2FG2FG2RGFd2I",
  "10d6E11172d12E23d4E49d4b2048c6400E366d2E106d38B7d12B5d5EFE10SE13dE5dEdE2dE2dE108U17d16E363ON",
  "V16E64d2E54d7Vd32E12TV3F16R7NORd6F16RM2L2NONONONONONONONOR2NOR4L3R3dR4MNONONOR3SMS3dRTR2d4E5",
  "dE135d2adR3TR3NORSRMR2I10R2S3R2A26NROULUB26NSOSNORNOR2E10DE45D2E31d3E6d2E6d2E6d2E3d3T2SUVT2d",
  "VS4V2d10a3V2d2E12dE26dE19dE2dE15d2E14d34E123d5R3d4K45d3V9J53K4V17K2V3dV13d3Vd47V45Fd130E29d3",
  "E49d15FK27d4E32K4d9E20JE8Jd5E38F5d5E30dRE36d4E8RJ5d42A40B40E78d2I10d6A36d4B36d4E40d8E52d11RA",
  "11dA15dA7dA2dB11dB15dB7dB2d67E311d9E22d10E8d24D6dD42dD9d69E6d2EdE44dE2d3Ed2E23dRK8E23V2K7E31",
  "d8K9d48E19dE2d5K5E22K6d3RE26d5Rd64E56d4K2E2K16d2K46EF3dF2d5F4E4dE3dE29d2F3d4FK9d7R9d7E29K2RE",
  "29K3d32E8VE28F2d4K5R7d9E54d3R7E22d2K8E19d5K8E18d7R4d12K7d80E73d55A51d13B51d7K6E36F4d8I10d294",
  "K31dE42dF2Md2E2d78E29K10Ed8E22F11K4R5d22E18F4R4d38E21K7d20E23d9GFGE53F15R7d4K20I10FE2F2Ed9F3",
  "GE45G3F4G2F2R2aR4Fd10ad2E25d7I10d6F3E36F5GF8dI10R4EG2Ed8E35FR2Ed9F2GE48G3F9G2E4R4F4RGFI10ERE",
  "R3dK20d11E18dE25G3F3G2FGF2R6Fd65E7dEdE4dE15dE10Rd6E47FG3F8d5I10d6F2G2dE8d2E2d2E22dE7dE2dE5dF",
  "2EG2FG4d2G2d2G3d2Ed6Gd5E5G2d2F7d3F5d139E53G3F8G2F3GFE4R5I10R2dRFE3d30E48G3F6GFG4F2GF2E2REd8I",
  "10d166E47G3F4d2G4F2GF2R23E4F2d34E48G3F8G2FGF2R3Ed11I10d6R13d19E43FGFG2F6GFERd6I10d54E27d2F3G",
  "2F4GF5d4I10K2R3VE7d185E44G3F9GF2Rd100A32B32I10K9d12E8d2Ed2E8dE2dE24G6dG2d2F2GFEGEGFR3d9I10d7",
  "0E8d2E39G3F4d2F2G4FEREGd27EF10E40F6GEF4R8Fd8EF6G2F3E46F13GF2R3ER5d13E73d263E9dE37GF7dF6GFER5",
  "d10I10K19d3R2E30d2F22dGF7GF2GF2d73E7dE2dE38F6d3FdF2dF7EFd8I10d6E6dE2dE32G5dF2dG2FGFEd7I10d31",
  "0E19F2G2R2d183Ed15K21V8T4V17d13RE922d102J111dR5d11E196d2636E97R2d13E1071da9d4039E583d8633E56",
  "9d7E31dI10d4R2E79dI10d6E30d2F5Rd10E48F7R5V4D4RVd10I10dK7dE21d5E19d688A32B32K23R4d101E75d4FEG",
  "55d7F4D13d64D2RDFd11G2d14E6136d8E1238d42E9d8935D4dD7dD2dE291d45E3d17E4d8E396d2308E107d5E13d3",
  "E9d7E10d2VF2Ra4d4700F46d2F23d9V116d60V246d10V39d2V60G2F3V3G6a8F8V2F7V30F4V61d21V66F3Vd154K20",
  "d12V87d9K25d135A26B26A26B7dB18A26B26AdA2d2Ad2A2d2A4dA8B4dBdB7dB11A26B26A2dA4d2A8dA7dB26A2dA4",
  "dA5dAd3A7dB26A26B26A26B26A26B26A26B26A26B26A26B28d2A25SB25SB6A25SB25SB6A25SB25SB6A25SB25SB6A",
  "25SB25SB6ABd2I50V512F55V4F50V8FV14FV2R5d15F5dF15d1104B10EB20d225F7dF17d2F7dF2dF5d213E45d3F7D",
  "7d2I10d4EVd320E30Fd17E44F4I10d5Td1248E7dE4dE2dE15dE197d2K9F7d41A34B34F7Dd4I10d4R2d785K59VK3T",
  "K4d76K45VK15d194E4dE27dE2dEd2EdE10dE4dEdEd6Ed4EdEdEdE3dE2dEd2EdEdEdEdEdE2dEd2E4dE7dE4dE4dEdE",
  "10dE17d5E3dE5dE17d52S2d270V44d4V100d12V15d2V15dV15dV37d10K13V161d56V29d13V44d4V9d7V2d14V6d15",
  "4V251U5V728d5V16d3V13d3V116d12V89d7V12d4Vd15V12d4V56d8V10d6V40d8V30d2V2d78V340d12V14d2V5d3V5",
  "d3V7d9V29d3V11d5V6d10V10d6V8d8V7d9V147dV55d37I10d1030E42720d32E4153d7E222d2E5762d14E7473d310",
  "3E542d1506E4939d715958ad30a96d128F240d65040c65534d2c65534d2"]

/-- The number of a category's letter in the table. -/
private def categoryIndex (c : Char) : Nat :=
  if c.isUpper then c.toNat - 'A'.toNat else c.toNat - 'a'.toNat + 26

/-- Reads the table: `(category, first, last)` for every run. The run being read is
`category, first, length so far`. -/
private def readRuns : List Char → Option (Nat × Nat × Nat) → List (Nat × Nat × Nat) →
    List (Nat × Nat × Nat)
  | [], none, acc => acc.reverse
  | [], some (k, first, n), acc => ((k, first, first + max n 1 - 1) :: acc).reverse
  | c :: rest, open?, acc =>
    if c.isDigit then
      readRuns rest (open?.map fun (k, first, n) => (k, first, 10 * n + (c.toNat - '0'.toNat))) acc
    else match open? with
      | none => readRuns rest (some (categoryIndex c, 0, 0)) acc
      | some (k, first, n) =>
        let next := first + max n 1
        readRuns rest (some (categoryIndex c, next, 0)) ((k, first, next - 1) :: acc)

/-- Every run of the table. -/
private def categoryRuns : List (Nat × Nat × Nat) :=
  readRuns (categoryTable.flatMap String.toList) none []

/-- The code points whose category is one of those named. -/
def ofCategories (names : List String) : CharSet :=
  let wanted := names.filterMap fun n => categoryNames.findIdx? (· == n)
  CharSet.ofRanges <| categoryRuns.filterMap fun (k, first, last) =>
    if wanted.contains k then some (first, last) else none

/-! ## Classes -/

/-- Decimal digits of all scripts. -/
def decimalDigits : CharSet := ofCategories ["Nd"]

/-- Everything numeric: digits, letter numbers and other numbers. -/
def numerics : CharSet := ofCategories ["Nd", "Nl", "No"]

/-- Encircled and squared letters, which are letters by property only. -/
private def enclosedLetters : List (Nat × Nat) :=
  [(0x24b6, 0x24e9), (0x1f130, 0x1f149), (0x1f150, 0x1f169), (0x1f170, 0x1f189)]

/-- Marks that are letters by property: how many code points to pass over and how many to take, in
turns, from zero on. -/
private def letterMarkTable : List String := [
  "837 1 618 14 1 1 1 2 1 2 1 1 72 11 48 13 1 7 16 1 101 7 4 4 2 2 4 1 35 1 30 16 102 11 101 2 ",
  "3 9 1 3 1 4 167 12 3 7 6 20 54 2 2 15 1 2 5 3 10 2 29 3 58 7 2 2 2 2 10 1 10 2 29 3 58 5 4 2 ",
  "2 2 4 1 30 2 3 1 11 3 58 8 1 3 1 2 21 2 22 3 4 3 58 7 2 2 2 2 9 2 10 2 30 1 59 5 3 3 1 3 10 ",
  "1 40 5 57 7 1 3 1 3 8 2 11 2 29 3 58 7 1 3 1 3 8 2 11 2 15 1 12 4 58 7 1 3 1 3 10 1 10 2 29 ",
  "3 75 6 1 1 1 8 18 2 61 1 2 7 18 1 99 1 2 6 1 2 16 1 163 19 9 11 1 36 110 12 1 1 2 4 23 4 4 3 ",
  "1 3 2 7 3 4 13 12 1 1 10 4 1652 2 30 2 30 2 30 2 66 19 188 2 34 1 118 12 4 9 222 5 57 10 2 ",
  "20 74 2 11 3 49 5 48 15 60 3 30 9 2 2 57 11 50 19 432 14 4075 32 30836 8 34 2 354 1 8 1 23 5 ",
  "88 2 50 16 1 1 57 1 38 5 28 12 45 4 48 12 37 1 67 14 12 1 8 2 45 3 50 1 1 3 2 2 5 1 44 5 5 1 ",
  "237 8 20275 1 2135 5 1670 3 1 2 5 4 788 4 387 2 339 3 53 14 45 2 11 3 45 9 9 1 61 3 36 12 18 ",
  "2 57 3 48 13 14 2 92 9 2 1 6 1 2 1 157 10 23 4 58 7 2 2 2 2 10 1 10 2 209 13 1 3 106 18 237 ",
  "7 2 7 29 2 82 15 1 1 106 11 103 14 257 13 247 6 1 2 2 2 3 1 1 1 142 7 2 6 4 1 28 10 42 5 1 4 ",
  "18 11 46 14 407 8 1 7 83 22 1 14 122 6 3 1 1 2 1 3 1 1 3 1 66 5 1 2 1 4 348 4 9 2 1 1 48 7 3 ",
  "3 20494 1 1 55 7 4 93 2 19628 1 9057 7 1 17 2 7 1 2 1 5 100 1 2231 1"]

/-- Reads the lengths of runs that are passed over and taken in turns. -/
private def takenRuns (next : Nat) : List Nat → List (Nat × Nat)
  | gap :: length :: rest =>
    (next + gap, next + gap + length - 1) :: takenRuns (next + gap + length) rest
  | _ => []

/-- The ranges of marks that are letters by property. -/
private def letterMarks : List (Nat × Nat) :=
  takenRuns 0 (((" ".intercalate letterMarkTable).splitOn " ").filterMap String.toNat?)

/-- Letters, letter numbers and the marks that are letters. -/
def letters : CharSet :=
  (ofCategories ["Lu", "Ll", "Lt", "Lm", "Lo", "Nl"]).union
    (.ofRanges (enclosedLetters ++ letterMarks))

/-- The characters of words: letters, marks, decimal digits, connectors and joiners. -/
def wordChars : CharSet :=
  .unions [letters, ofCategories ["Mn", "Mc", "Me", "Nd", "Pc"], .ofRanges [(0x200c, 0x200d)]]

/-- White space. -/
def blanks : CharSet :=
  .ofRanges [(0x9, 0xd), (0x20, 0x20), (0x85, 0x85), (0xa0, 0xa0), (0x1680, 0x1680),
    (0x2000, 0x200a), (0x2028, 0x2029), (0x202f, 0x202f), (0x205f, 0x205f), (0x3000, 0x3000)]

/-- Lower-case characters, modifiers and encircled letters included. -/
def lowercase : CharSet :=
  (ofCategories ["Ll"]).union (.ofRanges
    [(0xaa, 0xaa), (0xba, 0xba), (0x2b0, 0x2b8), (0x2c0, 0x2c1), (0x2e0, 0x2e4), (0x345, 0x345),
     (0x37a, 0x37a), (0x1d2c, 0x1d6a), (0x1d78, 0x1d78), (0x1d9b, 0x1dbf), (0x2071, 0x2071),
     (0x207f, 0x207f), (0x2090, 0x209c), (0x2170, 0x217f), (0x24d0, 0x24e9), (0x2c7c, 0x2c7d),
     (0xa69c, 0xa69d), (0xa770, 0xa770), (0xa7f8, 0xa7f9), (0xab5c, 0xab5f), (0x10780, 0x10780),
     (0x10783, 0x10785), (0x10787, 0x107b0), (0x107b2, 0x107ba)])

/-- Upper-case characters, encircled letters and numerals included. -/
def uppercase : CharSet :=
  (ofCategories ["Lu"]).union (.ofRanges
    [(0x2160, 0x216f), (0x24b6, 0x24cf), (0x1f130, 0x1f149), (0x1f150, 0x1f169),
     (0x1f170, 0x1f189)])

/-- Characters that case conversion passes over when it looks for the letters of a word. -/
def caseIgnorable : CharSet :=
  (ofCategories ["Mn", "Me", "Cf", "Lm", "Sk"]).union (.ofRanges
    [(0x27, 0x27), (0x2e, 0x2e), (0x3a, 0x3a), (0xb7, 0xb7), (0x387, 0x387), (0x55f, 0x55f),
     (0x5f4, 0x5f4), (0x2018, 0x2019), (0x2024, 0x2024), (0x2027, 0x2027), (0xfe13, 0xfe13),
     (0xfe52, 0xfe52), (0xfe55, 0xfe55), (0xff07, 0xff07), (0xff0e, 0xff0e), (0xff1a, 0xff1a)])

/-- Whether a character is white space. -/
def isBlank (c : Char) : Bool :=
  if c.toNat < 0x80 then c == ' ' || (0x9 ≤ c.toNat && c.toNat ≤ 0xd) else blanks.contains c

/-- Whether a character belongs to a word. -/
def isWordChar (c : Char) : Bool :=
  if c.toNat < 0x80 then c.isAlphanum || c == '_' else wordChars.contains c

/-- Whether a character is a letter. -/
def isLetter (c : Char) : Bool := if c.toNat < 0x80 then c.isAlpha else letters.contains c

/-- Whether a character is a letter or a number. -/
def isAlphanumeric (c : Char) : Bool :=
  if c.toNat < 0x80 then c.isAlphanum else letters.contains c || numerics.contains c

/-- Removes white space from both ends. -/
def trimList (cs : List Char) : List Char :=
  ((cs.dropWhile isBlank).reverse.dropWhile isBlank).reverse

/-- Removes white space from both ends of a text. -/
def trim (s : String) : String := String.ofList (trimList s.toList)

/-- Removes white space from the front of a text. -/
def trimLeft (s : String) : String := String.ofList (s.toList.dropWhile isBlank)

/-- Removes white space from the end of a text. -/
def trimRight (s : String) : String :=
  String.ofList (s.toList.reverse.dropWhile isBlank).reverse

/-! ## Quoted texts

A text between double quotes, with an escape for everything that would not show as a character of
its own. -/

/-- Marks and signs that extend the character before them without being nonspacing marks. -/
private def extenders : List (Nat × Nat) :=
  [(0x9be, 0x9be), (0x9d7, 0x9d7), (0xb3e, 0xb3e), (0xb57, 0xb57), (0xbbe, 0xbbe), (0xbd7, 0xbd7),
   (0xcc2, 0xcc2), (0xcd5, 0xcd6), (0xd3e, 0xd3e), (0xd57, 0xd57), (0xdcf, 0xdcf), (0xddf, 0xddf),
   (0x1b35, 0x1b35), (0x302e, 0x302f), (0xff9e, 0xff9f), (0x1133e, 0x1133e), (0x11357, 0x11357),
   (0x114b0, 0x114b0), (0x114bd, 0x114bd), (0x115af, 0x115af), (0x11930, 0x11930),
   (0x1d165, 0x1d165), (0x1d16e, 0x1d172)]

/-- What does not show as a character of its own: controls, formats, separators, what is private or
not assigned, and what extends the character before it. -/
def hidden : CharSet :=
  (ofCategories ["Cc", "Cf", "Cs", "Co", "Cn", "Zl", "Zp", "Zs", "Mn", "Me"]).union
    (.ofRanges extenders)

/-- Whether a character is written as its number. -/
def isHidden (c : Char) : Bool :=
  if c.toNat < 0x80 then c.toNat < 0x20 || c.toNat == 0x7f else hidden.contains c

/-- Writes a character of a quoted text. -/
def quoteChar (c : Char) : String :=
  if c == '"' then "\\\""
  else if c == '\\' then "\\\\"
  else if c == '\n' then "\\n"
  else if c == '\r' then "\\r"
  else if c == '\t' then "\\t"
  else if c == '\x00' then "\\0"
  else if isHidden c then "\\u\x7b" ++ String.ofList (Nat.toDigits 16 c.toNat) ++ "\x7d"
  else String.singleton c

/-- A text in quotes. -/
def quoted (s : String) : String := s.foldl (fun acc c => acc ++ quoteChar c) "\"" ++ "\""

end SoftwareCensus.Text
