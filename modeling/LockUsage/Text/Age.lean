import LockUsage.Text.CodeSet

/-! The versions of the standard in which characters appeared. The code of a version is its number
with two digits before the point and one after it. -/

namespace LockUsage.Text

def ageTable : String :=
  "011502 0304 01130 0308 0321 0401 03018 0403 04111 05014 01189 0305 0402 01147 0301 01110 0305
    04017 01170 0309 0321 0408 0415 0403 0112 0301 03213 0514 0112 0512 ---2 0111 0503 0111 0701
    ---4 0117 ---1 0111 ---1 01120 ---1 01144 0511 0117 0301 0322 0111 0301 0111 0301 0111 0301
    0111 0301 01118 0312 0321 0405 0414 0301 01112 0301 01166 0301 01112 0301 01141 0511 0302 0322
    0304 01153 0322 0112 0322 0112 0322 0501 01128 0302 0118 0412 0112 0506 03216 0504 05116 0522
    0602 0708 ---1 01138 ---2 0117 1101 01139 1101 0111 0301 ---2 0702 0611 ---1 02017 0411 02013
    01110 0501 0119 0201 0413 ---8 01127 ---4 1101 0115 ---11 0404 0611 0701 0515 0411 0111 0409
    0515 0111 0631 1401 0411 0111 0601 01126 0515 01119 0303 0403 0416 0601 01114 0322 01172 0302
    0115 0301 01115 0301 01130 0402 01110 0305 0401 03014 ---1 03030 0403 03027 ---2 0403 04130
    05118 03049 0321 ---14 05059 ---2 1103 05246 ---2 05215 ---1 06028 ---2 0601 ---1 10011 ---5
    14031 ---1 1402 ---5 1601 1408 0611 0701 06111 0706 0802 1401 0908 13010 14011 1101 09015 0801
    06127 0701 0521 0113 0401 01153 0602 01118 0521 0601 0115 0521 0602 01125 0512 0605 0701 0522
    0502 0411 0502 0701 0113 ---1 0118 ---2 0112 ---2 01122 ---1 0117 ---1 0111 ---3 0114 ---2 0111
    0401 0117 ---2 0112 ---2 0113 0411 ---8 0111 ---4 0112 ---1 0115 ---2 01121 0521 1002 1101 ---2
    0401 0111 0401 ---1 0116 ---4 0112 ---2 01122 ---1 0117 ---1 0112 ---1 0112 ---1 0112 ---2 0111
    ---1 0115 ---4 0112 ---2 0113 ---3 0511 ---7 0114 ---1 0111 ---7 01115 0511 1101 ---10 0113
    ---1 0117 0401 0111 ---1 0113 ---1 01122 ---1 0117 ---1 0112 ---1 0115 ---2 01110 ---1 0113
    ---1 0113 ---2 0111 ---15 0111 0403 ---2 01110 0611 0401 ---7 0801 1006 ---1 0113 ---1 0118
    ---2 0112 ---2 01122 ---1 0117 ---1 0112 ---1 0401 0114 ---2 0118 0511 ---2 0112 ---2 0113 ---7
    1301 0112 ---4 0112 ---1 0113 0512 ---2 01111 0401 0606 ---10 0112 ---1 0116 ---3 0113 ---1
    0114 ---3 0112 ---1 0111 ---1 0112 ---3 0112 ---3 0113 ---3 0118 0411 0113 ---4 0115 ---3 0113
    ---1 0114 ---2 0511 ---6 0111 ---14 0411 01112 0408 ---5 0701 0113 1101 0118 ---1 0113 ---1
    01123 ---1 01110 0701 0115 ---2 1401 0511 0117 ---1 0113 ---1 0114 ---7 0112 ---1 0512 0801
    ---2 1401 ---2 0112 0512 ---2 01110 ---7 1201 0518 0901 0701 0112 1101 0118 ---1 0113 ---1
    01123 ---1 01110 ---1 0115 ---2 0402 0117 ---1 0113 ---1 0114 ---7 0112 ---6 1401 0111 ---1
    0112 0502 ---2 01110 ---1 0502 1501 ---12 1001 0701 0112 1301 0118 ---1 0113 ---1 01123 0601
    01116 0601 1002 0511 0116 0511 ---1 0113 ---1 0114 0601 0901 ---4 0903 0111 0907 0801 0112 0512
    ---2 01110 0516 0903 0517 ---1 1301 0302 ---1 03018 ---3 03024 ---1 0309 ---1 0301 ---2 0307
    ---3 0301 ---4 0306 ---1 0301 ---1 0308 ---6 07010 ---2 0303 ---12 01158 ---4 01129 ---37 0112
    ---1 0111 ---1 1201 0112 1201 0111 ---1 1201 0111 1206 0114 1201 0117 1201 0113 ---1 0111 ---1
    0111 1202 0112 1201 01113 1201 0113 ---2 0115 ---1 0111 ---1 0116 1501 ---1 01110 ---2 0112
    0612 ---32 02072 ---1 02033 0301 0512 ---4 02027 0604 0206 0301 0201 ---1 02021 0303 0207 0301
    0201 0303 ---1 03015 ---1 0511 0301 0412 0513 0524 0602 ---37 03034 0511 0305 0511 0302 0511
    0307 0513 0304 0516 03026 05164 0524 0512 01138 ---1 0611 ---5 0611 ---2 01139 0322 0412 0111
    0411 0613 01190 0525 01168 0525 01182 0526 0307 0411 03063 0411 0301 ---1 0304 ---2 0307 ---1
    0301 ---1 0304 ---2 03039 0411 0301 ---1 0304 ---2 03031 0411 0301 ---1 0304 ---2 0307 ---1
    0301 ---1 0304 ---2 0307 0411 0307 ---1 03023 0411 03031 0411 0301 ---1 0304 ---2 0307 0411
    03039 0411 03019 ---2 0602 0412 03028 ---3 04126 ---6 03085 0801 ---2 0806 ---2 0521 030630
    0529 03029 ---3 03081 0708 ---7 03213 1401 0327 1401 ---9 1401 03223 ---9 03220 ---12 03213
    ---1 0323 ---1 0322 ---12 03093 0401 ---2 03010 ---6 04010 ---6 03015 1401 03010 ---6 03088
    1101 ---7 03042 0511 ---5 05270 ---10 04029 0702 ---1 04012 ---4 04012 ---4 0401 ---3 04042
    ---2 0405 ---11 04142 0522 ---4 04126 ---6 04110 0521 ---3 0412 04032 04128 ---2 0412 05263
    ---1 05229 ---2 05211 ---6 05210 ---6 05214 ---2 07015 1302 14014 ---49 05076 1401 ---1 1602
    05045 1402 1601 05143 0613 05112 0616 06052 ---8 0604 05156 ---3 05115 ---3 05151 0909 1602
    ---5 11043 ---2 1103 0618 ---8 05235 0614 1001 0702 1201 ---5 040108 04188 0507 05128 07015
    1004 1401 0901 0601 0521 0502 011155 0201 0514 01190 0516 01122 ---2 0116 ---2 01138 ---2 0116
    ---2 0118 ---1 0111 ---1 0111 ---1 0111 ---1 01131 ---2 01153 ---1 01115 ---1 01114 ---2 0116
    ---1 01119 ---2 0113 ---1 0119 ---1 01147 0301 01123 0321 0306 0325 0402 0412 0321 0417 0325
    0511 ---1 0634 0117 0321 ---2 01127 ---1 0415 0608 ---3 01111 0201 0211 0303 0322 0414 0523
    0601 0621 0703 0801 1001 1401 ---15 01118 0302 0327 0411 0504 0511 ---15 01157 0302 0401 0411
    03215 0411 0502 0511 0523 01148 0301 0501 0514 0521 0802 ---4 01191 0309 03212 011242 03214
    0111 0301 011121 0301 0321 03030 03252 0402 04111 05012 0521 06011 0707 0904 1001 01137 0302
    1603 ---22 01111 ---21 011139 03220 0401 011150 03210 01180 0308 0328 01120 0402 0322 0411 0301
    01186 0302 03212 0412 03210 0408 04111 0511 0522 0402 04116 0501 05110 0523 0514 05210 0601
    05219 0601 0521 0604 05224 0701 0114 0601 0114 0602 01128 0601 01135 0601 0111 0601 0114 0603
    0111 0521 0117 0602 0117 03214 01131 0603 01124 0601 01114 0601 0417 0504 0611 0511 0611 0602
    03228 0514 03216 030256 032512 04014 0416 0507 0515 0504 05141 0703 0515 0525 07026 ---2 07032
    ---1 1301 07034 1103 07012 1201 0708 1001 11025 0804 11015 1201 04147 1401 04147 1401 05013
    0513 0521 0513 0504 0516 0522 041107 0527 0612 ---5 04145 ---1 0611 ---5 0611 ---2 04154 0612
    ---7 0411 0601 ---14 0601 04123 ---9 0417 ---1 0417 ---1 0417 ---1 0417 ---1 0417 ---1 0417
    ---1 0417 ---1 0417 ---1 05132 04124 0514 0412 05119 0521 06110 0707 0902 1005 1105 1201 1303
    14011 ---34 03026 ---1 03089 ---12 030214 ---26 03012 1514 01156 0303 0323 0301 0111 ---1 01184
    0322 ---2 0116 0322 01194 0321 ---5 01140 0511 1001 1101 ---1 01194 ---1 01116 03024 0603 1305
    04116 05120 1602 ---9 1511 03216 01129 0402 ---1 01136 05212 0401 03215 01128 0402 0411 01150
    03215 01112 0404 01147 1211 011119 0404 01199 0402 01131 0401 0306582 13010 04064 01120902
    04122 0518 0528 0611 0809 10021 1105 13013 1403 0301165 ---3 03018 0322 03016 0321 03012 0321
    0303 0321 0301 ---9 05248 051300 ---20 05132 0602 05118 0618 05128 0706 0801 0611 05288 ---8
    04123 0504 0515 0502 051107 0602 0801 0602 0612 07012 06010 0611 0703 0901 1101 0702 0806 1102
    1206 1402 1205 1304 1603 ---2 1402 ---1 1401 ---1 1405 1603 ---21 1403 1302 0701 0612 0601 0515
    04144 1301 ---3 05210 ---6 05056 ---8 05169 0901 ---8 05112 ---6 05228 0802 1102 05184 ---11
    0511 05229 ---3 05278 ---1 05211 ---4 0522 07031 ---1 05155 ---9 05114 ---2 05110 ---2 0514
    05228 0704 05267 ---24 0525 06123 ---10 0606 ---2 0606 ---2 0606 ---9 0607 ---1 0607 ---1 07048
    0804 0702 1202 1304 ---4 08080 05246 ---2 05210 ---6 02011172 ---12 05223 ---4 05249 ---4
    0202048 0116702 0612 03259 0523 ---2 041106 ---38 0117 ---12 0115 ---5 0301 01125 ---1 0115
    ---1 0111 ---1 0112 ---1 0112 ---1 011108 06016 1401 ---16 011365 14016 01164 ---2 01154 ---7
    1401 03132 01112 0321 0401 1402 03216 04110 ---6 0114 0513 0707 0802 01121 0322 0402 01110 ---1
    01119 ---1 0114 ---4 0113 0321 0111 ---1 011135 ---2 0111 ---1 01194 0322 01194 ---3 0116 ---2
    0116 ---2 0116 ---2 0113 ---3 0117 ---1 0117 ---10 0303 0211 0113 04012 ---1 04026 ---1 04019
    ---1 0402 ---1 04015 ---2 04014 ---34 040123 ---5 0403 ---4 04045 ---3 0409 04175 0702 0902
    ---1 05112 1301 ---3 0701 ---47 05146 ---130 05129 ---3 05149 ---15 07028 ---4 03131 0701 0314
    ---9 1003 03127 ---5 07043 ---5 04030 ---1 0401 04136 ---4 04114 ---42 03138 0402 03138 04080
    ---2 04010 ---6 09036 ---4 09036 ---4 07040 ---8 07052 ---11 0701 14011 ---1 14015 ---1 1407
    ---1 1402 ---1 14011 ---1 14015 ---1 1407 ---1 1402 ---3 16052 ---12 070311 ---9 07022 ---10
    0708 ---24 1406 ---1 14042 ---1 1409 ---69 0406 ---2 0401 ---1 04044 ---1 0402 ---3 0401 ---2
    0401 05222 ---1 0529 07063 ---8 0709 ---48 08019 ---1 0802 ---5 0805 05026 0522 ---3 0501 05126
    ---5 0511 ---64 06156 ---4 0802 0612 08016 ---2 08046 0414 ---1 0412 ---5 0418 ---1 0413 ---1
    04127 1102 ---2 0413 ---4 0419 1101 ---7 0419 ---7 05232 07032 ---32 07039 ---4 07012 ---9
    05254 ---3 05229 ---2 05227 ---5 0528 07018 ---7 0704 ---12 0707 ---80 05273 ---55 08051 ---13
    08051 ---7 0806 11040 ---8 11010 ---6 16038 ---3 16029 ---8 1602 ---208 05231 ---1 13042 ---1
    1303 ---2 1302 ---16 1603 ---55 1601 1503 11040 ---8 11042 ---22 14026 ---38 13028 ---20 12023
    ---9 06078 ---4 06030 1406 ---9 0701 05266 1401 ---10 1101 ---2 06125 ---7 06110 ---6 06153
    ---1 06114 1103 1301 ---8 07039 ---9 06173 0804 0701 1302 06110 0701 0805 ---1 07020 ---11
    07018 ---1 07043 0901 1503 ---62 0807 ---1 0801 ---1 0804 ---1 08015 ---1 08011 ---6 07059 ---5
    07010 ---6 0801 0703 ---1 0708 ---2 0702 ---2 07022 ---1 0707 ---1 0702 ---1 0705 ---1 1101
    0709 ---2 0702 ---2 0703 ---2 0801 ---6 0701 ---5 0707 ---2 0707 ---3 0705 ---11 16010 ---1
    1601 ---2 1601 ---1 16038 ---1 16010 ---1 1601 ---2 1601 ---1 1604 ---1 16010 ---1 1602 ---8
    1602 ---29 09090 1301 0901 ---1 0901 1101 1201 1302 ---30 07072 ---8 07010 ---166 07054 ---2
    07018 08020 ---34 07069 ---11 07010 ---6 09013 ---19 06156 1201 1401 ---6 06110 ---6 16020
    ---28 08026 1101 ---2 08015 ---4 08016 1407 ---185 11060 ---100 07083 ---12 0701 1307 ---2 1301
    ---2 1308 ---1 1302 ---1 13030 ---1 1302 ---2 13012 ---9 13010 ---70 1208 ---2 12046 ---2 12011
    ---27 10072 ---8 10052 1202 10023 1101 1005 ---13 14016 07057 ---7 15010 ---182 16034 ---14
    16010 ---6 0909 ---1 09045 ---1 09014 ---10 09029 ---3 09032 ---2 09022 ---1 09014 ---73 1007
    ---1 1002 ---1 10044 ---3 1001 ---1 1002 ---1 1009 ---8 10010 ---6 1106 ---1 1102 ---1 11037
    ---1 1102 ---1 1106 ---7 11010 ---310 11025 ---7 15017 ---1 15041 ---3 15028 1601 ---85 1301
    ---15 12050 ---13 1201 050879 07042 0801 ---102 05099 07012 ---1 0504 0701 ---11 080196 ---2636
    14099 ---13 0521071 1501 1209 15029 ---10 1603995 ---5 080583 ---6841 16058 ---1734 060569 ---7
    07031 ---1 07010 ---4 0702 14079 ---1 14010 ---6 07030 ---2 0706 ---10 07070 ---10 07010 ---1
    0707 ---1 07021 ---5 07019 ---432 16058 ---198 11091 ---101 06169 1206 ---4 1201 06147 1209
    ---7 06117 ---64 0901 1001 1202 1301 ---11 1302 ---14 0906125 1105 1206 ---8 090755 130483
    ---41 1601 1309 ---8935 1404 ---1 1407 ---1 1402 ---1 0602 100285 1404 ---15 1501 ---29 1203
    ---2 1501 ---14 1204 ---8 100396 ---2308 070107 ---5 07013 ---3 0709 ---7 07010 ---2 0708
    ---3932 160250 ---6 160436 ---76 14046 ---2 14023 ---9 140116 ---60 031246 ---10 03139 ---2
    0511 031180 08011 1402 ---21 04170 ---122 15020 ---12 11020 ---12 04087 ---9 05018 1107 ---135
    03185 ---1 03171 ---1 0312 ---2 0311 ---2 0312 ---2 0314 ---1 03112 ---1 0311 ---1 0314 0401
    0312 ---1 03165 ---1 0314 ---2 0318 ---1 0317 ---1 03128 ---1 0314 ---1 0315 ---1 0311 ---3
    0317 ---1 031338 0412 ---2 031290 0502 ---2 03150 080652 ---15 0805 ---1 08015 ---1104 14031
    ---6 1506 ---213 0907 ---1 09017 ---2 0907 ---1 0902 ---1 0905 ---5 15062 ---33 1501 ---112
    12045 ---3 12014 ---2 12010 ---4 1202 ---320 14031 ---17 12058 ---5 1201 ---464 15042 ---214
    16043 ---4 1601 ---480 1407 ---1 1404 ---1 1402 ---1 14015 ---1 070197 ---2 07016 ---41 09075
    1201 ---4 09010 ---4 0902 ---785 11068 ---76 12061 ---194 0614 ---1 06127 ---1 0612 ---1 0611
    ---2 0611 ---1 06110 ---1 0614 ---1 0611 ---1 0611 ---6 0611 ---4 0611 ---1 0611 ---1 0611 ---1
    0613 ---1 0612 ---1 0611 ---2 0611 ---1 0611 ---1 0611 ---1 0611 ---1 0611 ---1 0612 ---1 0611
    ---2 0614 ---1 0617 ---1 0614 ---1 0614 ---1 0611 ---1 06110 ---1 06117 ---5 0613 ---1 0615
    ---1 06117 ---52 0612 ---270 05144 ---4 051100 ---12 06015 ---2 06014 0701 ---1 06015 ---1
    06015 07022 ---10 05211 0702 1303 05231 1101 0601 0521 06011 0521 0601 0521 0602 0521 0603 0521
    0603 0525 0608 0521 0607 0521 06010 0612 1201 1303 0609 0521 0601 0522 0602 0521 06010 0524
    0602 0521 06010 09018 1301 ---56 06026 0521 0602 ---13 05234 0609 0901 ---4 0529 ---7 0602
    ---14 1006 ---154 06033 07012 0803 0606 0701 06070 0701 0802 06020 07012 06037 0701 0605 0704
    0805 07012 06017 0707 0808 06063 0701 0601 0701 060182 0701 0604 0702 0801 06062 0702 0614 0707
    0805 06024 07018 0901 07041 0901 07086 0605 0611 06016 0611 0603 0611 0601 0611 0601 0611 0601
    0611 0603 0611 0606 0612 0604 0611 0601 0612 0604 0611 06012 0702 0802 06011 07048 06070 07010
    0801 0902 1002 1201 1302 ---4 1501 1403 07013 ---3 0704 0903 1002 1101 1201 1302 ---3 060116
    1503 ---4 1505 07085 1104 1501 ---6 12012 ---4 1401 ---15 07012 ---4 07056 ---8 07010 ---6
    07040 ---8 07030 ---2 1302 16010 ---4 1602 ---62 10012 1301 1203 0809 0906 1001 0908 1008 0901
    1002 09012 1201 09012 1001 1103 09015 10013 1105 1201 1301 1104 1302 1401 1101 1201 1104 0805
    09013 1006 11011 1302 1206 1303 1202 11010 1206 0801 1102 1208 1301 1401 1203 10023 11025 12084
    ---12 11014 ---2 1204 1301 1503 1203 1402 ---3 1203 1304 1502 1601 ---5 1601 1206 13019 1404
    1503 1307 1404 1503 1601 1501 1303 1403 1601 ---7 1502 1307 1403 1502 1601 ---2 1601 1408 1501
    1601 ---6 1407 1502 ---7 130147 ---1 13055 16037 13010 ---1028 0202 03142711 1307 1402 ---32
    0524149 1404 1501 ---6 060222 ---2 0805762 ---14 1007473 ---15 151622 ---2466 031542 ---1504
    0202 1304939 ---5 1504192 ---56398 0202 ---65534 0202 ---65534 0202 ---65534 0202 ---65534 0202
    ---65534 0202 ---65534 0202 ---65534 0202 ---65534 0202 ---65534 0202 ---65534 0202 ---1 0311
    ---30 03196 ---128 040240 ---65038 020131074"

def ageRuns : List (String × Nat × Nat) := tableRuns 3 ageTable

def versions : List String :=
  ["011", "020", "021", "030", "031", "032", "040", "041", "050", "051", "052", "060",
    "061", "062", "063", "070", "080", "090", "100", "110", "120", "121", "130", "140",
    "150", "151", "160"]

/-- The names of a version: `15.1` and `v151`. -/
def versionNames (code : String) : List String :=
  let digits := code.toList.dropWhile (· == '0')
  [String.ofList (digits.dropLast ++ '.' :: digits.getLast?.toList), String.ofList ('v' :: digits)]

/-- The characters of a version and all before it. -/
def ofVersion? (name : String) : Option CodeSet :=
  let earlier := versions.takeWhile fun code => !(versionNames code).contains name
  match versions.drop earlier.length with
  | [] => none
  | code :: _ => some (.ofRuns ageRuns (code :: earlier))

end LockUsage.Text
