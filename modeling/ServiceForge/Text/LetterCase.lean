/-
This file holds the letter cases of Unicode: the properties Lowercase, Uppercase,
Cased and Case_Ignorable, and the full mappings between the cases, in which one
letter may become several (`ß` becomes `SS`). ASCII has its own rule in each
definition, so statements about ASCII text need no table.
-/

import ServiceForge.Text.CodePoints

namespace ServiceForge.Text

/-! ### Case properties -/

/-- The lowercase characters of Unicode. -/
def lowercasePoints : CodePoints := CodePoints.ofText "
AA B5 BA DF-F6 F8-FF 101 103 105 107 109 10B 10D 10F 111 113 115 117 119 11B 11D 11F 121 123 125
127 129 12B 12D 12F 131 133 135 137-138 13A 13C 13E 140 142 144 146 148-149 14B 14D 14F 151 153
155 157 159 15B 15D 15F 161 163 165 167 169 16B 16D 16F 171 173 175 177 17A 17C 17E-180 183 185
188 18C-18D 192 195 199-19B 19E 1A1 1A3 1A5 1A8 1AA-1AB 1AD 1B0 1B4 1B6 1B9-1BA 1BD-1BF 1C6 1C9
1CC 1CE 1D0 1D2 1D4 1D6 1D8 1DA 1DC-1DD 1DF 1E1 1E3 1E5 1E7 1E9 1EB 1ED 1EF-1F0 1F3 1F5 1F9 1FB
1FD 1FF 201 203 205 207 209 20B 20D 20F 211 213 215 217 219 21B 21D 21F 221 223 225 227 229 22B
22D 22F 231 233-239 23C 23F-240 242 247 249 24B 24D 24F-293 295-2B8 2C0-2C1 2E0-2E4 345 371 373
377 37A-37D 390 3AC-3CE 3D0-3D1 3D5-3D7 3D9 3DB 3DD 3DF 3E1 3E3 3E5 3E7 3E9 3EB 3ED 3EF-3F3 3F5
3F8 3FB-3FC 430-45F 461 463 465 467 469 46B 46D 46F 471 473 475 477 479 47B 47D 47F 481 48B 48D
48F 491 493 495 497 499 49B 49D 49F 4A1 4A3 4A5 4A7 4A9 4AB 4AD 4AF 4B1 4B3 4B5 4B7 4B9 4BB 4BD
4BF 4C2 4C4 4C6 4C8 4CA 4CC 4CE-4CF 4D1 4D3 4D5 4D7 4D9 4DB 4DD 4DF 4E1 4E3 4E5 4E7 4E9 4EB 4ED
4EF 4F1 4F3 4F5 4F7 4F9 4FB 4FD 4FF 501 503 505 507 509 50B 50D 50F 511 513 515 517 519 51B 51D
51F 521 523 525 527 529 52B 52D 52F 560-588 10D0-10FA 10FC-10FF 13F8-13FD 1C80-1C88 1D00-1DBF
1E01 1E03 1E05 1E07 1E09 1E0B 1E0D 1E0F 1E11 1E13 1E15 1E17 1E19 1E1B 1E1D 1E1F 1E21 1E23 1E25
1E27 1E29 1E2B 1E2D 1E2F 1E31 1E33 1E35 1E37 1E39 1E3B 1E3D 1E3F 1E41 1E43 1E45 1E47 1E49 1E4B
1E4D 1E4F 1E51 1E53 1E55 1E57 1E59 1E5B 1E5D 1E5F 1E61 1E63 1E65 1E67 1E69 1E6B 1E6D 1E6F 1E71
1E73 1E75 1E77 1E79 1E7B 1E7D 1E7F 1E81 1E83 1E85 1E87 1E89 1E8B 1E8D 1E8F 1E91 1E93 1E95-1E9D
1E9F 1EA1 1EA3 1EA5 1EA7 1EA9 1EAB 1EAD 1EAF 1EB1 1EB3 1EB5 1EB7 1EB9 1EBB 1EBD 1EBF 1EC1 1EC3
1EC5 1EC7 1EC9 1ECB 1ECD 1ECF 1ED1 1ED3 1ED5 1ED7 1ED9 1EDB 1EDD 1EDF 1EE1 1EE3 1EE5 1EE7 1EE9
1EEB 1EED 1EEF 1EF1 1EF3 1EF5 1EF7 1EF9 1EFB 1EFD 1EFF-1F07 1F10-1F15 1F20-1F27 1F30-1F37
1F40-1F45 1F50-1F57 1F60-1F67 1F70-1F7D 1F80-1F87 1F90-1F97 1FA0-1FA7 1FB0-1FB4 1FB6-1FB7 1FBE
1FC2-1FC4 1FC6-1FC7 1FD0-1FD3 1FD6-1FD7 1FE0-1FE7 1FF2-1FF4 1FF6-1FF7 2071 207F 2090-209C 210A
210E-210F 2113 212F 2134 2139 213C-213D 2146-2149 214E 2170-217F 2184 24D0-24E9 2C30-2C5F 2C61
2C65-2C66 2C68 2C6A 2C6C 2C71 2C73-2C74 2C76-2C7D 2C81 2C83 2C85 2C87 2C89 2C8B 2C8D 2C8F 2C91
2C93 2C95 2C97 2C99 2C9B 2C9D 2C9F 2CA1 2CA3 2CA5 2CA7 2CA9 2CAB 2CAD 2CAF 2CB1 2CB3 2CB5 2CB7
2CB9 2CBB 2CBD 2CBF 2CC1 2CC3 2CC5 2CC7 2CC9 2CCB 2CCD 2CCF 2CD1 2CD3 2CD5 2CD7 2CD9 2CDB 2CDD
2CDF 2CE1 2CE3-2CE4 2CEC 2CEE 2CF3 2D00-2D25 2D27 2D2D A641 A643 A645 A647 A649 A64B A64D A64F
A651 A653 A655 A657 A659 A65B A65D A65F A661 A663 A665 A667 A669 A66B A66D A681 A683 A685 A687
A689 A68B A68D A68F A691 A693 A695 A697 A699 A69B-A69D A723 A725 A727 A729 A72B A72D A72F-A731
A733 A735 A737 A739 A73B A73D A73F A741 A743 A745 A747 A749 A74B A74D A74F A751 A753 A755 A757
A759 A75B A75D A75F A761 A763 A765 A767 A769 A76B A76D A76F-A778 A77A A77C A77F A781 A783 A785
A787 A78C A78E A791 A793-A795 A797 A799 A79B A79D A79F A7A1 A7A3 A7A5 A7A7 A7A9 A7AF A7B5 A7B7
A7B9 A7BB A7BD A7BF A7C1 A7C3 A7C8 A7CA A7D1 A7D3 A7D5 A7D7 A7D9 A7F2-A7F4 A7F6 A7F8-A7FA
AB30-AB5A AB5C-AB69 AB70-ABBF FB00-FB06 FB13-FB17 FF41-FF5A 10428-1044F 104D8-104FB 10597-105A1
105A3-105B1 105B3-105B9 105BB-105BC 10780 10783-10785 10787-107B0 107B2-107BA 10CC0-10CF2
118C0-118DF 16E60-16E7F 1D41A-1D433 1D44E-1D454 1D456-1D467 1D482-1D49B 1D4B6-1D4B9 1D4BB
1D4BD-1D4C3 1D4C5-1D4CF 1D4EA-1D503 1D51E-1D537 1D552-1D56B 1D586-1D59F 1D5BA-1D5D3 1D5EE-1D607
1D622-1D63B 1D656-1D66F 1D68A-1D6A5 1D6C2-1D6DA 1D6DC-1D6E1 1D6FC-1D714 1D716-1D71B 1D736-1D74E
1D750-1D755 1D770-1D788 1D78A-1D78F 1D7AA-1D7C2 1D7C4-1D7C9 1D7CB 1DF00-1DF09 1DF0B-1DF1E
1DF25-1DF2A 1E030-1E06D 1E922-1E943"

/-- The uppercase characters of Unicode. -/
def uppercasePoints : CodePoints := CodePoints.ofText "
C0-D6 D8-DE 100 102 104 106 108 10A 10C 10E 110 112 114 116 118 11A 11C 11E 120 122 124 126 128
12A 12C 12E 130 132 134 136 139 13B 13D 13F 141 143 145 147 14A 14C 14E 150 152 154 156 158 15A
15C 15E 160 162 164 166 168 16A 16C 16E 170 172 174 176 178-179 17B 17D 181-182 184 186-187
189-18B 18E-191 193-194 196-198 19C-19D 19F-1A0 1A2 1A4 1A6-1A7 1A9 1AC 1AE-1AF 1B1-1B3 1B5
1B7-1B8 1BC 1C4 1C7 1CA 1CD 1CF 1D1 1D3 1D5 1D7 1D9 1DB 1DE 1E0 1E2 1E4 1E6 1E8 1EA 1EC 1EE 1F1
1F4 1F6-1F8 1FA 1FC 1FE 200 202 204 206 208 20A 20C 20E 210 212 214 216 218 21A 21C 21E 220 222
224 226 228 22A 22C 22E 230 232 23A-23B 23D-23E 241 243-246 248 24A 24C 24E 370 372 376 37F 386
388-38A 38C 38E-38F 391-3A1 3A3-3AB 3CF 3D2-3D4 3D8 3DA 3DC 3DE 3E0 3E2 3E4 3E6 3E8 3EA 3EC 3EE
3F4 3F7 3F9-3FA 3FD-42F 460 462 464 466 468 46A 46C 46E 470 472 474 476 478 47A 47C 47E 480 48A
48C 48E 490 492 494 496 498 49A 49C 49E 4A0 4A2 4A4 4A6 4A8 4AA 4AC 4AE 4B0 4B2 4B4 4B6 4B8 4BA
4BC 4BE 4C0-4C1 4C3 4C5 4C7 4C9 4CB 4CD 4D0 4D2 4D4 4D6 4D8 4DA 4DC 4DE 4E0 4E2 4E4 4E6 4E8 4EA
4EC 4EE 4F0 4F2 4F4 4F6 4F8 4FA 4FC 4FE 500 502 504 506 508 50A 50C 50E 510 512 514 516 518 51A
51C 51E 520 522 524 526 528 52A 52C 52E 531-556 10A0-10C5 10C7 10CD 13A0-13F5 1C90-1CBA
1CBD-1CBF 1E00 1E02 1E04 1E06 1E08 1E0A 1E0C 1E0E 1E10 1E12 1E14 1E16 1E18 1E1A 1E1C 1E1E 1E20
1E22 1E24 1E26 1E28 1E2A 1E2C 1E2E 1E30 1E32 1E34 1E36 1E38 1E3A 1E3C 1E3E 1E40 1E42 1E44 1E46
1E48 1E4A 1E4C 1E4E 1E50 1E52 1E54 1E56 1E58 1E5A 1E5C 1E5E 1E60 1E62 1E64 1E66 1E68 1E6A 1E6C
1E6E 1E70 1E72 1E74 1E76 1E78 1E7A 1E7C 1E7E 1E80 1E82 1E84 1E86 1E88 1E8A 1E8C 1E8E 1E90 1E92
1E94 1E9E 1EA0 1EA2 1EA4 1EA6 1EA8 1EAA 1EAC 1EAE 1EB0 1EB2 1EB4 1EB6 1EB8 1EBA 1EBC 1EBE 1EC0
1EC2 1EC4 1EC6 1EC8 1ECA 1ECC 1ECE 1ED0 1ED2 1ED4 1ED6 1ED8 1EDA 1EDC 1EDE 1EE0 1EE2 1EE4 1EE6
1EE8 1EEA 1EEC 1EEE 1EF0 1EF2 1EF4 1EF6 1EF8 1EFA 1EFC 1EFE 1F08-1F0F 1F18-1F1D 1F28-1F2F
1F38-1F3F 1F48-1F4D 1F59 1F5B 1F5D 1F5F 1F68-1F6F 1FB8-1FBB 1FC8-1FCB 1FD8-1FDB 1FE8-1FEC
1FF8-1FFB 2102 2107 210B-210D 2110-2112 2115 2119-211D 2124 2126 2128 212A-212D 2130-2133
213E-213F 2145 2160-216F 2183 24B6-24CF 2C00-2C2F 2C60 2C62-2C64 2C67 2C69 2C6B 2C6D-2C70 2C72
2C75 2C7E-2C80 2C82 2C84 2C86 2C88 2C8A 2C8C 2C8E 2C90 2C92 2C94 2C96 2C98 2C9A 2C9C 2C9E 2CA0
2CA2 2CA4 2CA6 2CA8 2CAA 2CAC 2CAE 2CB0 2CB2 2CB4 2CB6 2CB8 2CBA 2CBC 2CBE 2CC0 2CC2 2CC4 2CC6
2CC8 2CCA 2CCC 2CCE 2CD0 2CD2 2CD4 2CD6 2CD8 2CDA 2CDC 2CDE 2CE0 2CE2 2CEB 2CED 2CF2 A640 A642
A644 A646 A648 A64A A64C A64E A650 A652 A654 A656 A658 A65A A65C A65E A660 A662 A664 A666 A668
A66A A66C A680 A682 A684 A686 A688 A68A A68C A68E A690 A692 A694 A696 A698 A69A A722 A724 A726
A728 A72A A72C A72E A732 A734 A736 A738 A73A A73C A73E A740 A742 A744 A746 A748 A74A A74C A74E
A750 A752 A754 A756 A758 A75A A75C A75E A760 A762 A764 A766 A768 A76A A76C A76E A779 A77B
A77D-A77E A780 A782 A784 A786 A78B A78D A790 A792 A796 A798 A79A A79C A79E A7A0 A7A2 A7A4 A7A6
A7A8 A7AA-A7AE A7B0-A7B4 A7B6 A7B8 A7BA A7BC A7BE A7C0 A7C2 A7C4-A7C7 A7C9 A7D0 A7D6 A7D8 A7F5
FF21-FF3A 10400-10427 104B0-104D3 10570-1057A 1057C-1058A 1058C-10592 10594-10595 10C80-10CB2
118A0-118BF 16E40-16E5F 1D400-1D419 1D434-1D44D 1D468-1D481 1D49C 1D49E-1D49F 1D4A2 1D4A5-1D4A6
1D4A9-1D4AC 1D4AE-1D4B5 1D4D0-1D4E9 1D504-1D505 1D507-1D50A 1D50D-1D514 1D516-1D51C 1D538-1D539
1D53B-1D53E 1D540-1D544 1D546 1D54A-1D550 1D56C-1D585 1D5A0-1D5B9 1D5D4-1D5ED 1D608-1D621
1D63C-1D655 1D670-1D689 1D6A8-1D6C0 1D6E2-1D6FA 1D71C-1D734 1D756-1D76E 1D790-1D7A8 1D7CA
1E900-1E921 1F130-1F149 1F150-1F169 1F170-1F189"

/-- The characters of Unicode that have a case. -/
def casedPoints : CodePoints := CodePoints.ofText "
AA B5 BA C0-D6 D8-F6 F8-1BA 1BC-1BF 1C4-293 295-2B8 2C0-2C1 2E0-2E4 345 370-373 376-377 37A-37D
37F 386 388-38A 38C 38E-3A1 3A3-3F5 3F7-481 48A-52F 531-556 560-588 10A0-10C5 10C7 10CD
10D0-10FA 10FC-10FF 13A0-13F5 13F8-13FD 1C80-1C88 1C90-1CBA 1CBD-1CBF 1D00-1DBF 1E00-1F15
1F18-1F1D 1F20-1F45 1F48-1F4D 1F50-1F57 1F59 1F5B 1F5D 1F5F-1F7D 1F80-1FB4 1FB6-1FBC 1FBE
1FC2-1FC4 1FC6-1FCC 1FD0-1FD3 1FD6-1FDB 1FE0-1FEC 1FF2-1FF4 1FF6-1FFC 2071 207F 2090-209C 2102
2107 210A-2113 2115 2119-211D 2124 2126 2128 212A-212D 212F-2134 2139 213C-213F 2145-2149 214E
2160-217F 2183-2184 24B6-24E9 2C00-2CE4 2CEB-2CEE 2CF2-2CF3 2D00-2D25 2D27 2D2D A640-A66D
A680-A69D A722-A787 A78B-A78E A790-A7CA A7D0-A7D1 A7D3 A7D5-A7D9 A7F2-A7F6 A7F8-A7FA AB30-AB5A
AB5C-AB69 AB70-ABBF FB00-FB06 FB13-FB17 FF21-FF3A FF41-FF5A 10400-1044F 104B0-104D3 104D8-104FB
10570-1057A 1057C-1058A 1058C-10592 10594-10595 10597-105A1 105A3-105B1 105B3-105B9 105BB-105BC
10780 10783-10785 10787-107B0 107B2-107BA 10C80-10CB2 10CC0-10CF2 118A0-118DF 16E40-16E7F
1D400-1D454 1D456-1D49C 1D49E-1D49F 1D4A2 1D4A5-1D4A6 1D4A9-1D4AC 1D4AE-1D4B9 1D4BB 1D4BD-1D4C3
1D4C5-1D505 1D507-1D50A 1D50D-1D514 1D516-1D51C 1D51E-1D539 1D53B-1D53E 1D540-1D544 1D546
1D54A-1D550 1D552-1D6A5 1D6A8-1D6C0 1D6C2-1D6DA 1D6DC-1D6FA 1D6FC-1D714 1D716-1D734 1D736-1D74E
1D750-1D76E 1D770-1D788 1D78A-1D7A8 1D7AA-1D7C2 1D7C4-1D7CB 1DF00-1DF09 1DF0B-1DF1E 1DF25-1DF2A
1E030-1E06D 1E900-1E943 1F130-1F149 1F150-1F169 1F170-1F189"

/-- The characters of Unicode that the end of a word is looked for beyond. -/
def caseIgnorablePoints : CodePoints := CodePoints.ofText "
A8 AD AF B4 B7-B8 2B0-36F 374-375 37A 384-385 387 483-489 559 55F 591-5BD 5BF 5C1-5C2 5C4-5C5
5C7 5F4 600-605 610-61A 61C 640 64B-65F 670 6D6-6DD 6DF-6E8 6EA-6ED 70F 711 730-74A 7A6-7B0
7EB-7F5 7FA 7FD 816-82D 859-85B 888 890-891 898-89F 8C9-902 93A 93C 941-948 94D 951-957 962-963
971 981 9BC 9C1-9C4 9CD 9E2-9E3 9FE A01-A02 A3C A41-A42 A47-A48 A4B-A4D A51 A70-A71 A75 A81-A82
ABC AC1-AC5 AC7-AC8 ACD AE2-AE3 AFA-AFF B01 B3C B3F B41-B44 B4D B55-B56 B62-B63 B82 BC0 BCD C00
C04 C3C C3E-C40 C46-C48 C4A-C4D C55-C56 C62-C63 C81 CBC CBF CC6 CCC-CCD CE2-CE3 D00-D01 D3B-D3C
D41-D44 D4D D62-D63 D81 DCA DD2-DD4 DD6 E31 E34-E3A E46-E4E EB1 EB4-EBC EC6 EC8-ECE F18-F19 F35
F37 F39 F71-F7E F80-F84 F86-F87 F8D-F97 F99-FBC FC6 102D-1030 1032-1037 1039-103A 103D-103E
1058-1059 105E-1060 1071-1074 1082 1085-1086 108D 109D 10FC 135D-135F 1712-1714 1732-1733
1752-1753 1772-1773 17B4-17B5 17B7-17BD 17C6 17C9-17D3 17D7 17DD 180B-180F 1843 1885-1886 18A9
1920-1922 1927-1928 1932 1939-193B 1A17-1A18 1A1B 1A56 1A58-1A5E 1A60 1A62 1A65-1A6C 1A73-1A7C
1A7F 1AA7 1AB0-1ACE 1B00-1B03 1B34 1B36-1B3A 1B3C 1B42 1B6B-1B73 1B80-1B81 1BA2-1BA5 1BA8-1BA9
1BAB-1BAD 1BE6 1BE8-1BE9 1BED 1BEF-1BF1 1C2C-1C33 1C36-1C37 1C78-1C7D 1CD0-1CD2 1CD4-1CE0
1CE2-1CE8 1CED 1CF4 1CF8-1CF9 1D2C-1D6A 1D78 1D9B-1DFF 1FBD 1FBF-1FC1 1FCD-1FCF 1FDD-1FDF
1FED-1FEF 1FFD-1FFE 200B-200F 2018-2019 2024 2027 202A-202E 2060-2064 2066-206F 2071 207F
2090-209C 20D0-20F0 2C7C-2C7D 2CEF-2CF1 2D6F 2D7F 2DE0-2DFF 2E2F 3005 302A-302D 3031-3035 303B
3099-309E 30FC-30FE A015 A4F8-A4FD A60C A66F-A672 A674-A67D A67F A69C-A69F A6F0-A6F1 A700-A721
A770 A788-A78A A7F2-A7F4 A7F8-A7F9 A802 A806 A80B A825-A826 A82C A8C4-A8C5 A8E0-A8F1 A8FF
A926-A92D A947-A951 A980-A982 A9B3 A9B6-A9B9 A9BC-A9BD A9CF A9E5-A9E6 AA29-AA2E AA31-AA32
AA35-AA36 AA43 AA4C AA70 AA7C AAB0 AAB2-AAB4 AAB7-AAB8 AABE-AABF AAC1 AADD AAEC-AAED AAF3-AAF4
AAF6 AB5B-AB5F AB69-AB6B ABE5 ABE8 ABED FB1E FBB2-FBC2 FE00-FE0F FE13 FE20-FE2F FE52 FE55 FEFF
FF07 FF0E FF1A FF3E FF40 FF70 FF9E-FF9F FFE3 FFF9-FFFB 101FD 102E0 10376-1037A 10780-10785
10787-107B0 107B2-107BA 10A01-10A03 10A05-10A06 10A0C-10A0F 10A38-10A3A 10A3F 10AE5-10AE6
10D24-10D27 10EAB-10EAC 10EFD-10EFF 10F46-10F50 10F82-10F85 11001 11038-11046 11070 11073-11074
1107F-11081 110B3-110B6 110B9-110BA 110BD 110C2 110CD 11100-11102 11127-1112B 1112D-11134 11173
11180-11181 111B6-111BE 111C9-111CC 111CF 1122F-11231 11234 11236-11237 1123E 11241 112DF
112E3-112EA 11300-11301 1133B-1133C 11340 11366-1136C 11370-11374 11438-1143F 11442-11444 11446
1145E 114B3-114B8 114BA 114BF-114C0 114C2-114C3 115B2-115B5 115BC-115BD 115BF-115C0 115DC-115DD
11633-1163A 1163D 1163F-11640 116AB 116AD 116B0-116B5 116B7 1171D-1171F 11722-11725 11727-1172B
1182F-11837 11839-1183A 1193B-1193C 1193E 11943 119D4-119D7 119DA-119DB 119E0 11A01-11A0A
11A33-11A38 11A3B-11A3E 11A47 11A51-11A56 11A59-11A5B 11A8A-11A96 11A98-11A99 11C30-11C36
11C38-11C3D 11C3F 11C92-11CA7 11CAA-11CB0 11CB2-11CB3 11CB5-11CB6 11D31-11D36 11D3A 11D3C-11D3D
11D3F-11D45 11D47 11D90-11D91 11D95 11D97 11EF3-11EF4 11F00-11F01 11F36-11F3A 11F40 11F42
13430-13440 13447-13455 16AF0-16AF4 16B30-16B36 16B40-16B43 16F4F 16F8F-16F9F 16FE0-16FE1
16FE3-16FE4 1AFF0-1AFF3 1AFF5-1AFFB 1AFFD-1AFFE 1BC9D-1BC9E 1BCA0-1BCA3 1CF00-1CF2D 1CF30-1CF46
1D167-1D169 1D173-1D182 1D185-1D18B 1D1AA-1D1AD 1D242-1D244 1DA00-1DA36 1DA3B-1DA6C 1DA75 1DA84
1DA9B-1DA9F 1DAA1-1DAAF 1E000-1E006 1E008-1E018 1E01B-1E021 1E023-1E024 1E026-1E02A 1E030-1E06D
1E08F 1E130-1E13D 1E2AE 1E2EC-1E2EF 1E4EB-1E4EF 1E8D0-1E8D6 1E944-1E94B 1F3FB-1F3FF E0001
E0020-E007F E0100-E01EF"

/-- Whether a character is lowercase. -/
def isLowercase (character : Char) : Bool :=
  if character.toNat < 128 then character.isLower
  else lowercasePoints.contains character

/-- Whether a character is uppercase. -/
def isUppercase (character : Char) : Bool :=
  if character.toNat < 128 then character.isUpper
  else uppercasePoints.contains character

/-- A letter that has a case, or a titlecase letter. -/
def isCased (character : Char) : Bool :=
  if character.toNat < 128 then character.isAlpha
  else casedPoints.contains character

/-- A character that does not separate a letter from the letters around it. -/
def isCaseIgnorable (character : Char) : Bool :=
  if character.toNat < 128 then ['\x27', '.', ':', '^', '\x60'].contains character
  else caseIgnorablePoints.contains character

/-! ### Case mappings -/

/-- Code points from `first` to `last` in steps of `step` that move by the same distance. -/
structure CaseShift where
  first : Nat
  last : Nat
  step : Nat
  isUp : Bool
  distance : Nat

namespace CaseShift

/-- The characters that are mapped upwards by a distance. -/
def up (first last step distance : Nat) : CaseShift := ⟨first, last, step, true, distance⟩

/-- The characters that are mapped downwards by a distance. -/
def down (first last step distance : Nat) : CaseShift := ⟨first, last, step, false, distance⟩

/-- Whether a shift maps a code point. -/
def covers (shift : CaseShift) (point : Nat) : Bool :=
  decide (shift.first ≤ point ∧ point ≤ shift.last ∧ (point - shift.first) % shift.step = 0)

/-- Where a code point moves. -/
def image (shift : CaseShift) (point : Nat) : Nat :=
  if shift.isUp then point + shift.distance else point - shift.distance

end CaseShift

/-- A mapping of letters: shifts to one letter, and expansions to several, all as code points. -/
structure CaseMapping where
  shifts : List CaseShift
  expansions : List (Nat × List Nat)

namespace CaseMapping

/-- The code points that a code point is mapped to. -/
def images (mapping : CaseMapping) (point : Nat) : List Nat :=
  match mapping.expansions.lookup point with
  | some image => image
  | none =>
    match mapping.shifts.find? (·.covers point) with
    | some shift => [shift.image point]
    | none => [point]

/-- The characters that a character is mapped to. -/
def apply (mapping : CaseMapping) (character : Char) : List Char :=
  (mapping.images character.toNat).map Char.ofNat

end CaseMapping

/-- The lowercase forms of the letters above ASCII. -/
def lowerMapping : CaseMapping where
  shifts := [
    .up 0xC0 0xD6 1 0x20, .up 0xD8 0xDE 1 0x20, .up 0x100 0x12E 2 0x1, .up 0x132 0x136 2 0x1,
    .up 0x139 0x147 2 0x1, .up 0x14A 0x176 2 0x1, .down 0x178 0x178 1 0x79, .up 0x179 0x17D 2 0x1,
    .up 0x181 0x181 1 0xD2, .up 0x182 0x184 2 0x1, .up 0x186 0x186 1 0xCE, .up 0x187 0x187 1 0x1,
    .up 0x189 0x18A 1 0xCD, .up 0x18B 0x18B 1 0x1, .up 0x18E 0x18E 1 0x4F, .up 0x18F 0x18F 1 0xCA,
    .up 0x190 0x190 1 0xCB, .up 0x191 0x191 1 0x1, .up 0x193 0x193 1 0xCD, .up 0x194 0x194 1 0xCF,
    .up 0x196 0x196 1 0xD3, .up 0x197 0x197 1 0xD1, .up 0x198 0x198 1 0x1, .up 0x19C 0x19C 1 0xD3,
    .up 0x19D 0x19D 1 0xD5, .up 0x19F 0x19F 1 0xD6, .up 0x1A0 0x1A4 2 0x1, .up 0x1A6 0x1A6 1 0xDA,
    .up 0x1A7 0x1A7 1 0x1, .up 0x1A9 0x1A9 1 0xDA, .up 0x1AC 0x1AC 1 0x1, .up 0x1AE 0x1AE 1 0xDA,
    .up 0x1AF 0x1AF 1 0x1, .up 0x1B1 0x1B2 1 0xD9, .up 0x1B3 0x1B5 2 0x1, .up 0x1B7 0x1B7 1 0xDB,
    .up 0x1B8 0x1B8 1 0x1, .up 0x1BC 0x1BC 1 0x1, .up 0x1C4 0x1C4 1 0x2, .up 0x1C5 0x1C5 1 0x1,
    .up 0x1C7 0x1C7 1 0x2, .up 0x1C8 0x1C8 1 0x1, .up 0x1CA 0x1CA 1 0x2, .up 0x1CB 0x1DB 2 0x1,
    .up 0x1DE 0x1EE 2 0x1, .up 0x1F1 0x1F1 1 0x2, .up 0x1F2 0x1F4 2 0x1, .down 0x1F6 0x1F6 1 0x61,
    .down 0x1F7 0x1F7 1 0x38, .up 0x1F8 0x21E 2 0x1, .down 0x220 0x220 1 0x82,
    .up 0x222 0x232 2 0x1, .up 0x23A 0x23A 1 0x2A2B, .up 0x23B 0x23B 1 0x1,
    .down 0x23D 0x23D 1 0xA3, .up 0x23E 0x23E 1 0x2A28, .up 0x241 0x241 1 0x1,
    .down 0x243 0x243 1 0xC3, .up 0x244 0x244 1 0x45, .up 0x245 0x245 1 0x47, .up 0x246 0x24E 2 0x1,
    .up 0x370 0x372 2 0x1, .up 0x376 0x376 1 0x1, .up 0x37F 0x37F 1 0x74, .up 0x386 0x386 1 0x26,
    .up 0x388 0x38A 1 0x25, .up 0x38C 0x38C 1 0x40, .up 0x38E 0x38F 1 0x3F, .up 0x391 0x3A1 1 0x20,
    .up 0x3A3 0x3AB 1 0x20, .up 0x3CF 0x3CF 1 0x8, .up 0x3D8 0x3EE 2 0x1, .down 0x3F4 0x3F4 1 0x3C,
    .up 0x3F7 0x3F7 1 0x1, .down 0x3F9 0x3F9 1 0x7, .up 0x3FA 0x3FA 1 0x1, .down 0x3FD 0x3FF 1 0x82,
    .up 0x400 0x40F 1 0x50, .up 0x410 0x42F 1 0x20, .up 0x460 0x480 2 0x1, .up 0x48A 0x4BE 2 0x1,
    .up 0x4C0 0x4C0 1 0xF, .up 0x4C1 0x4CD 2 0x1, .up 0x4D0 0x52E 2 0x1, .up 0x531 0x556 1 0x30,
    .up 0x10A0 0x10C5 1 0x1C60, .up 0x10C7 0x10C7 1 0x1C60, .up 0x10CD 0x10CD 1 0x1C60,
    .up 0x13A0 0x13EF 1 0x97D0, .up 0x13F0 0x13F5 1 0x8, .down 0x1C90 0x1CBA 1 0xBC0,
    .down 0x1CBD 0x1CBF 1 0xBC0, .up 0x1E00 0x1E94 2 0x1, .down 0x1E9E 0x1E9E 1 0x1DBF,
    .up 0x1EA0 0x1EFE 2 0x1, .down 0x1F08 0x1F0F 1 0x8, .down 0x1F18 0x1F1D 1 0x8,
    .down 0x1F28 0x1F2F 1 0x8, .down 0x1F38 0x1F3F 1 0x8, .down 0x1F48 0x1F4D 1 0x8,
    .down 0x1F59 0x1F5F 2 0x8, .down 0x1F68 0x1F6F 1 0x8, .down 0x1F88 0x1F8F 1 0x8,
    .down 0x1F98 0x1F9F 1 0x8, .down 0x1FA8 0x1FAF 1 0x8, .down 0x1FB8 0x1FB9 1 0x8,
    .down 0x1FBA 0x1FBB 1 0x4A, .down 0x1FBC 0x1FBC 1 0x9, .down 0x1FC8 0x1FCB 1 0x56,
    .down 0x1FCC 0x1FCC 1 0x9, .down 0x1FD8 0x1FD9 1 0x8, .down 0x1FDA 0x1FDB 1 0x64,
    .down 0x1FE8 0x1FE9 1 0x8, .down 0x1FEA 0x1FEB 1 0x70, .down 0x1FEC 0x1FEC 1 0x7,
    .down 0x1FF8 0x1FF9 1 0x80, .down 0x1FFA 0x1FFB 1 0x7E, .down 0x1FFC 0x1FFC 1 0x9,
    .down 0x2126 0x2126 1 0x1D5D, .down 0x212A 0x212A 1 0x20BF, .down 0x212B 0x212B 1 0x2046,
    .up 0x2132 0x2132 1 0x1C, .up 0x2160 0x216F 1 0x10, .up 0x2183 0x2183 1 0x1,
    .up 0x24B6 0x24CF 1 0x1A, .up 0x2C00 0x2C2F 1 0x30, .up 0x2C60 0x2C60 1 0x1,
    .down 0x2C62 0x2C62 1 0x29F7, .down 0x2C63 0x2C63 1 0xEE6, .down 0x2C64 0x2C64 1 0x29E7,
    .up 0x2C67 0x2C6B 2 0x1, .down 0x2C6D 0x2C6D 1 0x2A1C, .down 0x2C6E 0x2C6E 1 0x29FD,
    .down 0x2C6F 0x2C6F 1 0x2A1F, .down 0x2C70 0x2C70 1 0x2A1E, .up 0x2C72 0x2C72 1 0x1,
    .up 0x2C75 0x2C75 1 0x1, .down 0x2C7E 0x2C7F 1 0x2A3F, .up 0x2C80 0x2CE2 2 0x1,
    .up 0x2CEB 0x2CED 2 0x1, .up 0x2CF2 0x2CF2 1 0x1, .up 0xA640 0xA66C 2 0x1,
    .up 0xA680 0xA69A 2 0x1, .up 0xA722 0xA72E 2 0x1, .up 0xA732 0xA76E 2 0x1,
    .up 0xA779 0xA77B 2 0x1, .down 0xA77D 0xA77D 1 0x8A04, .up 0xA77E 0xA786 2 0x1,
    .up 0xA78B 0xA78B 1 0x1, .down 0xA78D 0xA78D 1 0xA528, .up 0xA790 0xA792 2 0x1,
    .up 0xA796 0xA7A8 2 0x1, .down 0xA7AA 0xA7AA 1 0xA544, .down 0xA7AB 0xA7AB 1 0xA54F,
    .down 0xA7AC 0xA7AC 1 0xA54B, .down 0xA7AD 0xA7AD 1 0xA541, .down 0xA7AE 0xA7AE 1 0xA544,
    .down 0xA7B0 0xA7B0 1 0xA512, .down 0xA7B1 0xA7B1 1 0xA52A, .down 0xA7B2 0xA7B2 1 0xA515,
    .up 0xA7B3 0xA7B3 1 0x3A0, .up 0xA7B4 0xA7C2 2 0x1, .down 0xA7C4 0xA7C4 1 0x30,
    .down 0xA7C5 0xA7C5 1 0xA543, .down 0xA7C6 0xA7C6 1 0x8A38, .up 0xA7C7 0xA7C9 2 0x1,
    .up 0xA7D0 0xA7D0 1 0x1, .up 0xA7D6 0xA7D8 2 0x1, .up 0xA7F5 0xA7F5 1 0x1,
    .up 0xFF21 0xFF3A 1 0x20, .up 0x10400 0x10427 1 0x28, .up 0x104B0 0x104D3 1 0x28,
    .up 0x10570 0x1057A 1 0x27, .up 0x1057C 0x1058A 1 0x27, .up 0x1058C 0x10592 1 0x27,
    .up 0x10594 0x10595 1 0x27, .up 0x10C80 0x10CB2 1 0x40, .up 0x118A0 0x118BF 1 0x20,
    .up 0x16E40 0x16E5F 1 0x20, .up 0x1E900 0x1E921 1 0x22]
  expansions := [
    (0x130, [0x69, 0x307])]

/-- The uppercase forms of the letters above ASCII. -/
def upperMapping : CaseMapping where
  shifts := [
    .up 0xB5 0xB5 1 0x2E7, .down 0xE0 0xF6 1 0x20, .down 0xF8 0xFE 1 0x20, .up 0xFF 0xFF 1 0x79,
    .down 0x101 0x12F 2 0x1, .down 0x131 0x131 1 0xE8, .down 0x133 0x137 2 0x1,
    .down 0x13A 0x148 2 0x1, .down 0x14B 0x177 2 0x1, .down 0x17A 0x17E 2 0x1,
    .down 0x17F 0x17F 1 0x12C, .up 0x180 0x180 1 0xC3, .down 0x183 0x185 2 0x1,
    .down 0x188 0x188 1 0x1, .down 0x18C 0x18C 1 0x1, .down 0x192 0x192 1 0x1,
    .up 0x195 0x195 1 0x61, .down 0x199 0x199 1 0x1, .up 0x19A 0x19A 1 0xA3, .up 0x19E 0x19E 1 0x82,
    .down 0x1A1 0x1A5 2 0x1, .down 0x1A8 0x1A8 1 0x1, .down 0x1AD 0x1AD 1 0x1,
    .down 0x1B0 0x1B0 1 0x1, .down 0x1B4 0x1B6 2 0x1, .down 0x1B9 0x1B9 1 0x1,
    .down 0x1BD 0x1BD 1 0x1, .up 0x1BF 0x1BF 1 0x38, .down 0x1C5 0x1C5 1 0x1,
    .down 0x1C6 0x1C6 1 0x2, .down 0x1C8 0x1C8 1 0x1, .down 0x1C9 0x1C9 1 0x2,
    .down 0x1CB 0x1CB 1 0x1, .down 0x1CC 0x1CC 1 0x2, .down 0x1CE 0x1DC 2 0x1,
    .down 0x1DD 0x1DD 1 0x4F, .down 0x1DF 0x1EF 2 0x1, .down 0x1F2 0x1F2 1 0x1,
    .down 0x1F3 0x1F3 1 0x2, .down 0x1F5 0x1F5 1 0x1, .down 0x1F9 0x21F 2 0x1,
    .down 0x223 0x233 2 0x1, .down 0x23C 0x23C 1 0x1, .up 0x23F 0x240 1 0x2A3F,
    .down 0x242 0x242 1 0x1, .down 0x247 0x24F 2 0x1, .up 0x250 0x250 1 0x2A1F,
    .up 0x251 0x251 1 0x2A1C, .up 0x252 0x252 1 0x2A1E, .down 0x253 0x253 1 0xD2,
    .down 0x254 0x254 1 0xCE, .down 0x256 0x257 1 0xCD, .down 0x259 0x259 1 0xCA,
    .down 0x25B 0x25B 1 0xCB, .up 0x25C 0x25C 1 0xA54F, .down 0x260 0x260 1 0xCD,
    .up 0x261 0x261 1 0xA54B, .down 0x263 0x263 1 0xCF, .up 0x265 0x265 1 0xA528,
    .up 0x266 0x266 1 0xA544, .down 0x268 0x268 1 0xD1, .down 0x269 0x269 1 0xD3,
    .up 0x26A 0x26A 1 0xA544, .up 0x26B 0x26B 1 0x29F7, .up 0x26C 0x26C 1 0xA541,
    .down 0x26F 0x26F 1 0xD3, .up 0x271 0x271 1 0x29FD, .down 0x272 0x272 1 0xD5,
    .down 0x275 0x275 1 0xD6, .up 0x27D 0x27D 1 0x29E7, .down 0x280 0x280 1 0xDA,
    .up 0x282 0x282 1 0xA543, .down 0x283 0x283 1 0xDA, .up 0x287 0x287 1 0xA52A,
    .down 0x288 0x288 1 0xDA, .down 0x289 0x289 1 0x45, .down 0x28A 0x28B 1 0xD9,
    .down 0x28C 0x28C 1 0x47, .down 0x292 0x292 1 0xDB, .up 0x29D 0x29D 1 0xA515,
    .up 0x29E 0x29E 1 0xA512, .up 0x345 0x345 1 0x54, .down 0x371 0x373 2 0x1,
    .down 0x377 0x377 1 0x1, .up 0x37B 0x37D 1 0x82, .down 0x3AC 0x3AC 1 0x26,
    .down 0x3AD 0x3AF 1 0x25, .down 0x3B1 0x3C1 1 0x20, .down 0x3C2 0x3C2 1 0x1F,
    .down 0x3C3 0x3CB 1 0x20, .down 0x3CC 0x3CC 1 0x40, .down 0x3CD 0x3CE 1 0x3F,
    .down 0x3D0 0x3D0 1 0x3E, .down 0x3D1 0x3D1 1 0x39, .down 0x3D5 0x3D5 1 0x2F,
    .down 0x3D6 0x3D6 1 0x36, .down 0x3D7 0x3D7 1 0x8, .down 0x3D9 0x3EF 2 0x1,
    .down 0x3F0 0x3F0 1 0x56, .down 0x3F1 0x3F1 1 0x50, .up 0x3F2 0x3F2 1 0x7,
    .down 0x3F3 0x3F3 1 0x74, .down 0x3F5 0x3F5 1 0x60, .down 0x3F8 0x3F8 1 0x1,
    .down 0x3FB 0x3FB 1 0x1, .down 0x430 0x44F 1 0x20, .down 0x450 0x45F 1 0x50,
    .down 0x461 0x481 2 0x1, .down 0x48B 0x4BF 2 0x1, .down 0x4C2 0x4CE 2 0x1,
    .down 0x4CF 0x4CF 1 0xF, .down 0x4D1 0x52F 2 0x1, .down 0x561 0x586 1 0x30,
    .up 0x10D0 0x10FA 1 0xBC0, .up 0x10FD 0x10FF 1 0xBC0, .down 0x13F8 0x13FD 1 0x8,
    .down 0x1C80 0x1C80 1 0x186E, .down 0x1C81 0x1C81 1 0x186D, .down 0x1C82 0x1C82 1 0x1864,
    .down 0x1C83 0x1C84 1 0x1862, .down 0x1C85 0x1C85 1 0x1863, .down 0x1C86 0x1C86 1 0x185C,
    .down 0x1C87 0x1C87 1 0x1825, .up 0x1C88 0x1C88 1 0x89C2, .up 0x1D79 0x1D79 1 0x8A04,
    .up 0x1D7D 0x1D7D 1 0xEE6, .up 0x1D8E 0x1D8E 1 0x8A38, .down 0x1E01 0x1E95 2 0x1,
    .down 0x1E9B 0x1E9B 1 0x3B, .down 0x1EA1 0x1EFF 2 0x1, .up 0x1F00 0x1F07 1 0x8,
    .up 0x1F10 0x1F15 1 0x8, .up 0x1F20 0x1F27 1 0x8, .up 0x1F30 0x1F37 1 0x8,
    .up 0x1F40 0x1F45 1 0x8, .up 0x1F51 0x1F57 2 0x8, .up 0x1F60 0x1F67 1 0x8,
    .up 0x1F70 0x1F71 1 0x4A, .up 0x1F72 0x1F75 1 0x56, .up 0x1F76 0x1F77 1 0x64,
    .up 0x1F78 0x1F79 1 0x80, .up 0x1F7A 0x1F7B 1 0x70, .up 0x1F7C 0x1F7D 1 0x7E,
    .up 0x1FB0 0x1FB1 1 0x8, .down 0x1FBE 0x1FBE 1 0x1C25, .up 0x1FD0 0x1FD1 1 0x8,
    .up 0x1FE0 0x1FE1 1 0x8, .up 0x1FE5 0x1FE5 1 0x7, .down 0x214E 0x214E 1 0x1C,
    .down 0x2170 0x217F 1 0x10, .down 0x2184 0x2184 1 0x1, .down 0x24D0 0x24E9 1 0x1A,
    .down 0x2C30 0x2C5F 1 0x30, .down 0x2C61 0x2C61 1 0x1, .down 0x2C65 0x2C65 1 0x2A2B,
    .down 0x2C66 0x2C66 1 0x2A28, .down 0x2C68 0x2C6C 2 0x1, .down 0x2C73 0x2C73 1 0x1,
    .down 0x2C76 0x2C76 1 0x1, .down 0x2C81 0x2CE3 2 0x1, .down 0x2CEC 0x2CEE 2 0x1,
    .down 0x2CF3 0x2CF3 1 0x1, .down 0x2D00 0x2D25 1 0x1C60, .down 0x2D27 0x2D27 1 0x1C60,
    .down 0x2D2D 0x2D2D 1 0x1C60, .down 0xA641 0xA66D 2 0x1, .down 0xA681 0xA69B 2 0x1,
    .down 0xA723 0xA72F 2 0x1, .down 0xA733 0xA76F 2 0x1, .down 0xA77A 0xA77C 2 0x1,
    .down 0xA77F 0xA787 2 0x1, .down 0xA78C 0xA78C 1 0x1, .down 0xA791 0xA793 2 0x1,
    .up 0xA794 0xA794 1 0x30, .down 0xA797 0xA7A9 2 0x1, .down 0xA7B5 0xA7C3 2 0x1,
    .down 0xA7C8 0xA7CA 2 0x1, .down 0xA7D1 0xA7D1 1 0x1, .down 0xA7D7 0xA7D9 2 0x1,
    .down 0xA7F6 0xA7F6 1 0x1, .down 0xAB53 0xAB53 1 0x3A0, .down 0xAB70 0xABBF 1 0x97D0,
    .down 0xFF41 0xFF5A 1 0x20, .down 0x10428 0x1044F 1 0x28, .down 0x104D8 0x104FB 1 0x28,
    .down 0x10597 0x105A1 1 0x27, .down 0x105A3 0x105B1 1 0x27, .down 0x105B3 0x105B9 1 0x27,
    .down 0x105BB 0x105BC 1 0x27, .down 0x10CC0 0x10CF2 1 0x40, .down 0x118C0 0x118DF 1 0x20,
    .down 0x16E60 0x16E7F 1 0x20, .down 0x1E922 0x1E943 1 0x22]
  expansions := [
    (0xDF, [0x53, 0x53]), (0x149, [0x2BC, 0x4E]), (0x1F0, [0x4A, 0x30C]),
    (0x390, [0x399, 0x308, 0x301]), (0x3B0, [0x3A5, 0x308, 0x301]), (0x587, [0x535, 0x552]),
    (0x1E96, [0x48, 0x331]), (0x1E97, [0x54, 0x308]), (0x1E98, [0x57, 0x30A]),
    (0x1E99, [0x59, 0x30A]), (0x1E9A, [0x41, 0x2BE]), (0x1F50, [0x3A5, 0x313]),
    (0x1F52, [0x3A5, 0x313, 0x300]), (0x1F54, [0x3A5, 0x313, 0x301]),
    (0x1F56, [0x3A5, 0x313, 0x342]), (0x1F80, [0x1F08, 0x399]), (0x1F81, [0x1F09, 0x399]),
    (0x1F82, [0x1F0A, 0x399]), (0x1F83, [0x1F0B, 0x399]), (0x1F84, [0x1F0C, 0x399]),
    (0x1F85, [0x1F0D, 0x399]), (0x1F86, [0x1F0E, 0x399]), (0x1F87, [0x1F0F, 0x399]),
    (0x1F88, [0x1F08, 0x399]), (0x1F89, [0x1F09, 0x399]), (0x1F8A, [0x1F0A, 0x399]),
    (0x1F8B, [0x1F0B, 0x399]), (0x1F8C, [0x1F0C, 0x399]), (0x1F8D, [0x1F0D, 0x399]),
    (0x1F8E, [0x1F0E, 0x399]), (0x1F8F, [0x1F0F, 0x399]), (0x1F90, [0x1F28, 0x399]),
    (0x1F91, [0x1F29, 0x399]), (0x1F92, [0x1F2A, 0x399]), (0x1F93, [0x1F2B, 0x399]),
    (0x1F94, [0x1F2C, 0x399]), (0x1F95, [0x1F2D, 0x399]), (0x1F96, [0x1F2E, 0x399]),
    (0x1F97, [0x1F2F, 0x399]), (0x1F98, [0x1F28, 0x399]), (0x1F99, [0x1F29, 0x399]),
    (0x1F9A, [0x1F2A, 0x399]), (0x1F9B, [0x1F2B, 0x399]), (0x1F9C, [0x1F2C, 0x399]),
    (0x1F9D, [0x1F2D, 0x399]), (0x1F9E, [0x1F2E, 0x399]), (0x1F9F, [0x1F2F, 0x399]),
    (0x1FA0, [0x1F68, 0x399]), (0x1FA1, [0x1F69, 0x399]), (0x1FA2, [0x1F6A, 0x399]),
    (0x1FA3, [0x1F6B, 0x399]), (0x1FA4, [0x1F6C, 0x399]), (0x1FA5, [0x1F6D, 0x399]),
    (0x1FA6, [0x1F6E, 0x399]), (0x1FA7, [0x1F6F, 0x399]), (0x1FA8, [0x1F68, 0x399]),
    (0x1FA9, [0x1F69, 0x399]), (0x1FAA, [0x1F6A, 0x399]), (0x1FAB, [0x1F6B, 0x399]),
    (0x1FAC, [0x1F6C, 0x399]), (0x1FAD, [0x1F6D, 0x399]), (0x1FAE, [0x1F6E, 0x399]),
    (0x1FAF, [0x1F6F, 0x399]), (0x1FB2, [0x1FBA, 0x399]), (0x1FB3, [0x391, 0x399]),
    (0x1FB4, [0x386, 0x399]), (0x1FB6, [0x391, 0x342]), (0x1FB7, [0x391, 0x342, 0x399]),
    (0x1FBC, [0x391, 0x399]), (0x1FC2, [0x1FCA, 0x399]), (0x1FC3, [0x397, 0x399]),
    (0x1FC4, [0x389, 0x399]), (0x1FC6, [0x397, 0x342]), (0x1FC7, [0x397, 0x342, 0x399]),
    (0x1FCC, [0x397, 0x399]), (0x1FD2, [0x399, 0x308, 0x300]), (0x1FD3, [0x399, 0x308, 0x301]),
    (0x1FD6, [0x399, 0x342]), (0x1FD7, [0x399, 0x308, 0x342]), (0x1FE2, [0x3A5, 0x308, 0x300]),
    (0x1FE3, [0x3A5, 0x308, 0x301]), (0x1FE4, [0x3A1, 0x313]), (0x1FE6, [0x3A5, 0x342]),
    (0x1FE7, [0x3A5, 0x308, 0x342]), (0x1FF2, [0x1FFA, 0x399]), (0x1FF3, [0x3A9, 0x399]),
    (0x1FF4, [0x38F, 0x399]), (0x1FF6, [0x3A9, 0x342]), (0x1FF7, [0x3A9, 0x342, 0x399]),
    (0x1FFC, [0x3A9, 0x399]), (0xFB00, [0x46, 0x46]), (0xFB01, [0x46, 0x49]),
    (0xFB02, [0x46, 0x4C]), (0xFB03, [0x46, 0x46, 0x49]), (0xFB04, [0x46, 0x46, 0x4C]),
    (0xFB05, [0x53, 0x54]), (0xFB06, [0x53, 0x54]), (0xFB13, [0x544, 0x546]),
    (0xFB14, [0x544, 0x535]), (0xFB15, [0x544, 0x53B]), (0xFB16, [0x54E, 0x546]),
    (0xFB17, [0x544, 0x53D])]

/-- The lowercase of a character, apart from the end of words. -/
def lowerCharacter (character : Char) : List Char :=
  if character.toNat < 128 then [character.toLower] else lowerMapping.apply character

/-- The uppercase of a character, which may be several characters. -/
def upperCharacter (character : Char) : List Char :=
  if character.toNat < 128 then [character.toUpper] else upperMapping.apply character

/-- The uppercase of a list of characters. -/
def upperAll (text : List Char) : List Char := text.flatMap upperCharacter

/-- Whether a capital sigma between these texts ends its word: a letter before it, none after
it, characters without influence on case set aside. -/
def endsWord (before after : List Char) : Bool :=
  ((before.dropWhile isCaseIgnorable).head?.any isCased) &&
    !((after.dropWhile isCaseIgnorable).head?.any isCased)

/-- Lowers each letter; `before` holds the letters already passed, the nearest first. -/
def lowerAfter (before : List Char) : List Char → List Char
  | [] => []
  | character :: rest =>
    (if character = 'Σ' then [if endsWord before rest then 'ς' else 'σ']
      else lowerCharacter character) ++ lowerAfter (character :: before) rest

/-- The lowercase form of a text, with the final form of a sigma at the end of a word. -/
def lower (text : String) : String := String.ofList (lowerAfter [] text.toList)

/-- The uppercase of a text. -/
def upper (text : String) : String := String.ofList (upperAll text.toList)

/-- The text with its first letter in upper case. -/
def capitalize (text : String) : String :=
  match text.toList with
  | [] => ""
  | first :: rest => String.ofList (upperCharacter first ++ rest)

end ServiceForge.Text
