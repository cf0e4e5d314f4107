/-!
# Composed characters

Some letters with marks are characters of their own. A text is composed if it writes them so, and
the marks that follow a letter come in the order of their classes. Marks of the same class get in
each other's way: only the first of them joins the letter.
-/

namespace DeepLink.Url.Domain

/-- Classes of marks below 220, each with the first and the last mark of a range. -/
def classRanges : List (Nat × Nat × Nat) :=
  [(1, 0x334, 0x338), (1, 0x1CD4, 0x1CD4), (1, 0x1CE2, 0x1CE8), (1, 0x20D2, 0x20D3),
    (1, 0x20D8, 0x20DA), (1, 0x20E5, 0x20E6), (1, 0x20EA, 0x20EB), (1, 0x10A39, 0x10A39),
    (1, 0x16AF0, 0x16AF4), (1, 0x1BC9E, 0x1BC9E), (1, 0x1D167, 0x1D169), (6, 0x16FF0, 0x16FF1),
    (7, 0x93C, 0x93C), (7, 0x9BC, 0x9BC), (7, 0xA3C, 0xA3C), (7, 0xABC, 0xABC), (7, 0xB3C, 0xB3C),
    (7, 0xC3C, 0xC3C), (7, 0xCBC, 0xCBC), (7, 0x1037, 0x1037), (7, 0x1B34, 0x1B34),
    (7, 0x1BE6, 0x1BE6), (7, 0x1C37, 0x1C37), (7, 0xA9B3, 0xA9B3), (7, 0x110BA, 0x110BA),
    (7, 0x11173, 0x11173), (7, 0x111CA, 0x111CA), (7, 0x11236, 0x11236), (7, 0x112E9, 0x112E9),
    (7, 0x1133B, 0x1133C), (7, 0x11446, 0x11446), (7, 0x114C3, 0x114C3), (7, 0x115C0, 0x115C0),
    (7, 0x116B7, 0x116B7), (7, 0x1183A, 0x1183A), (7, 0x11943, 0x11943), (7, 0x11D42, 0x11D42),
    (7, 0x1E94A, 0x1E94A), (8, 0x3099, 0x309A), (9, 0x94D, 0x94D), (9, 0x9CD, 0x9CD),
    (9, 0xA4D, 0xA4D), (9, 0xACD, 0xACD), (9, 0xB4D, 0xB4D), (9, 0xBCD, 0xBCD), (9, 0xC4D, 0xC4D),
    (9, 0xCCD, 0xCCD), (9, 0xD3B, 0xD3C), (9, 0xD4D, 0xD4D), (9, 0xDCA, 0xDCA), (9, 0xE3A, 0xE3A),
    (9, 0xEBA, 0xEBA), (9, 0xF84, 0xF84), (9, 0x1039, 0x103A), (9, 0x1714, 0x1715),
    (9, 0x1734, 0x1734), (9, 0x17D2, 0x17D2), (9, 0x1A60, 0x1A60), (9, 0x1B44, 0x1B44),
    (9, 0x1BAA, 0x1BAB), (9, 0x1BF2, 0x1BF3), (9, 0x2D7F, 0x2D7F), (9, 0xA806, 0xA806),
    (9, 0xA82C, 0xA82C), (9, 0xA8C4, 0xA8C4), (9, 0xA953, 0xA953), (9, 0xA9C0, 0xA9C0),
    (9, 0xAAF6, 0xAAF6), (9, 0xABED, 0xABED), (9, 0x10A3F, 0x10A3F), (9, 0x11046, 0x11046),
    (9, 0x11070, 0x11070), (9, 0x1107F, 0x1107F), (9, 0x110B9, 0x110B9), (9, 0x11133, 0x11134),
    (9, 0x111C0, 0x111C0), (9, 0x11235, 0x11235), (9, 0x112EA, 0x112EA), (9, 0x1134D, 0x1134D),
    (9, 0x11442, 0x11442), (9, 0x114C2, 0x114C2), (9, 0x115BF, 0x115BF), (9, 0x1163F, 0x1163F),
    (9, 0x116B6, 0x116B6), (9, 0x1172B, 0x1172B), (9, 0x11839, 0x11839), (9, 0x1193D, 0x1193E),
    (9, 0x119E0, 0x119E0), (9, 0x11A34, 0x11A34), (9, 0x11A47, 0x11A47), (9, 0x11A99, 0x11A99),
    (9, 0x11C3F, 0x11C3F), (9, 0x11D44, 0x11D45), (9, 0x11D97, 0x11D97), (10, 0x5B0, 0x5B0),
    (11, 0x5B1, 0x5B1), (12, 0x5B2, 0x5B2), (13, 0x5B3, 0x5B3), (14, 0x5B4, 0x5B4),
    (15, 0x5B5, 0x5B5), (16, 0x5B6, 0x5B6), (17, 0x5B7, 0x5B7), (18, 0x5B8, 0x5B8),
    (18, 0x5C7, 0x5C7), (19, 0x5B9, 0x5BA), (20, 0x5BB, 0x5BB), (21, 0x5BC, 0x5BC),
    (22, 0x5BD, 0x5BD), (23, 0x5BF, 0x5BF), (24, 0x5C1, 0x5C1), (25, 0x5C2, 0x5C2),
    (26, 0xFB1E, 0xFB1E), (27, 0x64B, 0x64B), (27, 0x8F0, 0x8F0), (28, 0x64C, 0x64C),
    (28, 0x8F1, 0x8F1), (29, 0x64D, 0x64D), (29, 0x8F2, 0x8F2), (30, 0x618, 0x618),
    (30, 0x64E, 0x64E), (31, 0x619, 0x619), (31, 0x64F, 0x64F), (32, 0x61A, 0x61A),
    (32, 0x650, 0x650), (33, 0x651, 0x651), (34, 0x652, 0x652), (35, 0x670, 0x670),
    (36, 0x711, 0x711), (84, 0xC55, 0xC55), (91, 0xC56, 0xC56), (103, 0xE38, 0xE39),
    (107, 0xE48, 0xE4B), (118, 0xEB8, 0xEB9), (122, 0xEC8, 0xECB), (129, 0xF71, 0xF71),
    (130, 0xF72, 0xF72), (130, 0xF7A, 0xF7D), (130, 0xF80, 0xF80), (132, 0xF74, 0xF74),
    (202, 0x321, 0x322), (202, 0x327, 0x328), (202, 0x1DD0, 0x1DD0), (214, 0x1DCE, 0x1DCE),
    (216, 0x31B, 0x31B), (216, 0xF39, 0xF39), (216, 0x1D165, 0x1D166), (216, 0x1D16E, 0x1D172),
    (218, 0x1DFA, 0x1DFA), (218, 0x302A, 0x302A)]

/-- The class 220 of marks below a letter, with ranges of them. -/
def lowerClassRanges : List (Nat × Nat × Nat) :=
  [(220, 0x316, 0x319), (220, 0x31C, 0x320), (220, 0x323, 0x326), (220, 0x329, 0x333),
    (220, 0x339, 0x33C), (220, 0x347, 0x349), (220, 0x34D, 0x34E), (220, 0x353, 0x356),
    (220, 0x359, 0x35A), (220, 0x591, 0x591), (220, 0x596, 0x596), (220, 0x59B, 0x59B),
    (220, 0x5A2, 0x5A7), (220, 0x5AA, 0x5AA), (220, 0x5C5, 0x5C5), (220, 0x655, 0x656),
    (220, 0x65C, 0x65C), (220, 0x65F, 0x65F), (220, 0x6E3, 0x6E3), (220, 0x6EA, 0x6EA),
    (220, 0x6ED, 0x6ED), (220, 0x731, 0x731), (220, 0x734, 0x734), (220, 0x737, 0x739),
    (220, 0x73B, 0x73C), (220, 0x73E, 0x73E), (220, 0x742, 0x742), (220, 0x744, 0x744),
    (220, 0x746, 0x746), (220, 0x748, 0x748), (220, 0x7F2, 0x7F2), (220, 0x7FD, 0x7FD),
    (220, 0x859, 0x85B), (220, 0x899, 0x89B), (220, 0x8CF, 0x8D3), (220, 0x8E3, 0x8E3),
    (220, 0x8E6, 0x8E6), (220, 0x8E9, 0x8E9), (220, 0x8ED, 0x8EF), (220, 0x8F6, 0x8F6),
    (220, 0x8F9, 0x8FA), (220, 0x952, 0x952), (220, 0xF18, 0xF19), (220, 0xF35, 0xF35),
    (220, 0xF37, 0xF37), (220, 0xFC6, 0xFC6), (220, 0x108D, 0x108D), (220, 0x193B, 0x193B),
    (220, 0x1A18, 0x1A18), (220, 0x1A7F, 0x1A7F), (220, 0x1AB5, 0x1ABA), (220, 0x1ABD, 0x1ABD),
    (220, 0x1ABF, 0x1AC0), (220, 0x1AC3, 0x1AC4), (220, 0x1ACA, 0x1ACA), (220, 0x1B6C, 0x1B6C),
    (220, 0x1CD5, 0x1CD9), (220, 0x1CDC, 0x1CDF), (220, 0x1CED, 0x1CED), (220, 0x1DC2, 0x1DC2),
    (220, 0x1DCA, 0x1DCA), (220, 0x1DCF, 0x1DCF), (220, 0x1DF9, 0x1DF9), (220, 0x1DFD, 0x1DFD),
    (220, 0x1DFF, 0x1DFF), (220, 0x20E8, 0x20E8), (220, 0x20EC, 0x20EF), (220, 0xA92B, 0xA92D),
    (220, 0xAAB4, 0xAAB4), (220, 0xFE27, 0xFE2D), (220, 0x101FD, 0x101FD), (220, 0x102E0, 0x102E0),
    (220, 0x10A0D, 0x10A0D), (220, 0x10A3A, 0x10A3A), (220, 0x10AE6, 0x10AE6),
    (220, 0x10F46, 0x10F47), (220, 0x10F4B, 0x10F4B), (220, 0x10F4D, 0x10F50),
    (220, 0x10F83, 0x10F83), (220, 0x10F85, 0x10F85), (220, 0x1D17B, 0x1D182),
    (220, 0x1D18A, 0x1D18B), (220, 0x1E8D0, 0x1E8D6)]

/-- Classes of marks above 220, with ranges of them. -/
def upperClassRanges : List (Nat × Nat × Nat) :=
  [(222, 0x59A, 0x59A), (222, 0x5AD, 0x5AD), (222, 0x1939, 0x1939), (222, 0x302D, 0x302D),
    (224, 0x302E, 0x302F), (226, 0x1D16D, 0x1D16D), (228, 0x5AE, 0x5AE), (228, 0x18A9, 0x18A9),
    (228, 0x1DF7, 0x1DF8), (228, 0x302B, 0x302B), (230, 0x300, 0x314), (230, 0x33D, 0x346),
    (230, 0x34A, 0x34C), (230, 0x350, 0x352), (230, 0x357, 0x357), (230, 0x35B, 0x35B),
    (230, 0x363, 0x36F), (230, 0x483, 0x487), (230, 0x592, 0x595), (230, 0x597, 0x599),
    (230, 0x59C, 0x5A1), (230, 0x5A8, 0x5A9), (230, 0x5AB, 0x5AC), (230, 0x5AF, 0x5AF),
    (230, 0x5C4, 0x5C4), (230, 0x610, 0x617), (230, 0x653, 0x654), (230, 0x657, 0x65B),
    (230, 0x65D, 0x65E), (230, 0x6D6, 0x6DC), (230, 0x6DF, 0x6E2), (230, 0x6E4, 0x6E4),
    (230, 0x6E7, 0x6E8), (230, 0x6EB, 0x6EC), (230, 0x730, 0x730), (230, 0x732, 0x733),
    (230, 0x735, 0x736), (230, 0x73A, 0x73A), (230, 0x73D, 0x73D), (230, 0x73F, 0x741),
    (230, 0x743, 0x743), (230, 0x745, 0x745), (230, 0x747, 0x747), (230, 0x749, 0x74A),
    (230, 0x7EB, 0x7F1), (230, 0x7F3, 0x7F3), (230, 0x816, 0x819), (230, 0x81B, 0x823),
    (230, 0x825, 0x827), (230, 0x829, 0x82D), (230, 0x898, 0x898), (230, 0x89C, 0x89F),
    (230, 0x8CA, 0x8CE), (230, 0x8D4, 0x8E1), (230, 0x8E4, 0x8E5), (230, 0x8E7, 0x8E8),
    (230, 0x8EA, 0x8EC), (230, 0x8F3, 0x8F5), (230, 0x8F7, 0x8F8), (230, 0x8FB, 0x8FF),
    (230, 0x951, 0x951), (230, 0x953, 0x954), (230, 0x9FE, 0x9FE), (230, 0xF82, 0xF83),
    (230, 0xF86, 0xF87), (230, 0x135D, 0x135F), (230, 0x17DD, 0x17DD), (230, 0x193A, 0x193A),
    (230, 0x1A17, 0x1A17), (230, 0x1A75, 0x1A7C), (230, 0x1AB0, 0x1AB4), (230, 0x1ABB, 0x1ABC),
    (230, 0x1AC1, 0x1AC2), (230, 0x1AC5, 0x1AC9), (230, 0x1ACB, 0x1ACE), (230, 0x1B6B, 0x1B6B),
    (230, 0x1B6D, 0x1B73), (230, 0x1CD0, 0x1CD2), (230, 0x1CDA, 0x1CDB), (230, 0x1CE0, 0x1CE0),
    (230, 0x1CF4, 0x1CF4), (230, 0x1CF8, 0x1CF9), (230, 0x1DC0, 0x1DC1), (230, 0x1DC3, 0x1DC9),
    (230, 0x1DCB, 0x1DCC), (230, 0x1DD1, 0x1DF5), (230, 0x1DFB, 0x1DFB), (230, 0x1DFE, 0x1DFE),
    (230, 0x20D0, 0x20D1), (230, 0x20D4, 0x20D7), (230, 0x20DB, 0x20DC), (230, 0x20E1, 0x20E1),
    (230, 0x20E7, 0x20E7), (230, 0x20E9, 0x20E9), (230, 0x20F0, 0x20F0), (230, 0x2CEF, 0x2CF1),
    (230, 0x2DE0, 0x2DFF), (230, 0xA66F, 0xA66F), (230, 0xA674, 0xA67D), (230, 0xA69E, 0xA69F),
    (230, 0xA6F0, 0xA6F1), (230, 0xA8E0, 0xA8F1), (230, 0xAAB0, 0xAAB0), (230, 0xAAB2, 0xAAB3),
    (230, 0xAAB7, 0xAAB8), (230, 0xAABE, 0xAABF), (230, 0xAAC1, 0xAAC1), (230, 0xFE20, 0xFE26),
    (230, 0xFE2E, 0xFE2F), (230, 0x10376, 0x1037A), (230, 0x10A0F, 0x10A0F),
    (230, 0x10A38, 0x10A38), (230, 0x10AE5, 0x10AE5), (230, 0x10D24, 0x10D27),
    (230, 0x10EAB, 0x10EAC), (230, 0x10F48, 0x10F4A), (230, 0x10F4C, 0x10F4C),
    (230, 0x10F82, 0x10F82), (230, 0x10F84, 0x10F84), (230, 0x11100, 0x11102),
    (230, 0x11366, 0x11374), (230, 0x1145E, 0x1145E), (230, 0x16B30, 0x16B36),
    (230, 0x1D185, 0x1D189), (230, 0x1D1AA, 0x1D1AD), (230, 0x1D242, 0x1D244),
    (230, 0x1E000, 0x1E02A), (230, 0x1E130, 0x1E136), (230, 0x1E2AE, 0x1E2AE),
    (230, 0x1E2EC, 0x1E2EF), (230, 0x1E944, 0x1E949), (232, 0x315, 0x315), (232, 0x31A, 0x31A),
    (232, 0x358, 0x358), (232, 0x1DF6, 0x1DF6), (232, 0x302C, 0x302C), (233, 0x35C, 0x35C),
    (233, 0x35F, 0x35F), (233, 0x362, 0x362), (233, 0x1DFC, 0x1DFC), (234, 0x35D, 0x35E),
    (234, 0x360, 0x361), (234, 0x1DCD, 0x1DCD)]

/-- Marks with the letters that they are composed with. -/
def compositions : List (Nat × List Nat) :=
  [(0x300, [0x61, 0x65, 0x69, 0x6E, 0x6F, 0x75, 0x77, 0x79, 0xE2, 0xEA, 0xF4, 0xFC, 0x103, 0x113,
      0x14D, 0x1A1, 0x1B0, 0x3B1, 0x3B5, 0x3B7, 0x3B9, 0x3BF, 0x3C5, 0x3C9, 0x3CA, 0x3CB, 0x435,
      0x438, 0x1F00, 0x1F01, 0x1F10, 0x1F11, 0x1F20, 0x1F21, 0x1F30, 0x1F31, 0x1F40, 0x1F41, 0x1F50,
      0x1F51, 0x1F60, 0x1F61]),
    (0x301, [0x61, 0x63, 0x65, 0x67, 0x69, 0x6B, 0x6C, 0x6D, 0x6E, 0x6F, 0x70, 0x72, 0x73, 0x75,
      0x77, 0x79, 0x7A, 0xE2, 0xE5, 0xE6, 0xE7, 0xEA, 0xEF, 0xF4, 0xF5, 0xF8, 0xFC, 0x103, 0x113,
      0x14D, 0x169, 0x1A1, 0x1B0, 0x3B1, 0x3B5, 0x3B7, 0x3B9, 0x3BF, 0x3C5, 0x3C9, 0x3CA, 0x3CB,
      0x433, 0x43A, 0x1F00, 0x1F01, 0x1F10, 0x1F11, 0x1F20, 0x1F21, 0x1F30, 0x1F31, 0x1F40, 0x1F41,
      0x1F50, 0x1F51, 0x1F60, 0x1F61]),
    (0x302, [0x61, 0x63, 0x65, 0x67, 0x68, 0x69, 0x6A, 0x6F, 0x73, 0x75, 0x77, 0x79, 0x7A, 0x1EA1,
      0x1EB9, 0x1ECD]),
    (0x303, [0x61, 0x65, 0x69, 0x6E, 0x6F, 0x75, 0x76, 0x79, 0xE2, 0xEA, 0xF4, 0x103, 0x1A1,
      0x1B0]),
    (0x304, [0x61, 0x65, 0x67, 0x69, 0x6F, 0x75, 0x79, 0xE4, 0xE6, 0xF5, 0xF6, 0xFC, 0x1EB, 0x227,
      0x22F, 0x3B1, 0x3B9, 0x3C5, 0x438, 0x443, 0x1E37, 0x1E5B]),
    (0x306, [0x61, 0x65, 0x67, 0x69, 0x6F, 0x75, 0x229, 0x3B1, 0x3B9, 0x3C5, 0x430, 0x435, 0x436,
      0x438, 0x443, 0x1EA1]),
    (0x307, [0x61, 0x62, 0x63, 0x64, 0x65, 0x66, 0x67, 0x68, 0x6D, 0x6E, 0x6F, 0x70, 0x72, 0x73,
      0x74, 0x77, 0x78, 0x79, 0x7A, 0x15B, 0x161, 0x1E63]),
    (0x308, [0x61, 0x65, 0x68, 0x69, 0x6F, 0x74, 0x75, 0x77, 0x78, 0x79, 0xF5, 0x16B, 0x3B9, 0x3C5,
      0x430, 0x435, 0x436, 0x437, 0x438, 0x43E, 0x443, 0x447, 0x44B, 0x44D, 0x456, 0x4D9, 0x4E9]),
    (0x309, [0x61, 0x65, 0x69, 0x6F, 0x75, 0x79, 0xE2, 0xEA, 0xF4, 0x103, 0x1A1, 0x1B0]),
    (0x30A, [0x61, 0x75, 0x77, 0x79]),
    (0x30B, [0x6F, 0x75, 0x443]),
    (0x30C, [0x61, 0x63, 0x64, 0x65, 0x67, 0x68, 0x69, 0x6A, 0x6B, 0x6C, 0x6E, 0x6F, 0x72, 0x73,
      0x74, 0x75, 0x7A, 0xFC, 0x292]),
    (0x30F, [0x61, 0x65, 0x69, 0x6F, 0x72, 0x75, 0x475]),
    (0x311, [0x61, 0x65, 0x69, 0x6F, 0x72, 0x75]),
    (0x313, [0x3B1, 0x3B5, 0x3B7, 0x3B9, 0x3BF, 0x3C1, 0x3C5, 0x3C9]),
    (0x314, [0x3B1, 0x3B5, 0x3B7, 0x3B9, 0x3BF, 0x3C1, 0x3C5, 0x3C9]),
    (0x31B, [0x6F, 0x75]),
    (0x323, [0x61, 0x62, 0x64, 0x65, 0x68, 0x69, 0x6B, 0x6C, 0x6D, 0x6E, 0x6F, 0x72, 0x73, 0x74,
      0x75, 0x76, 0x77, 0x79, 0x7A, 0x1A1, 0x1B0]),
    (0x324, [0x75]),
    (0x325, [0x61]),
    (0x326, [0x73, 0x74]),
    (0x327, [0x63, 0x64, 0x65, 0x67, 0x68, 0x6B, 0x6C, 0x6E, 0x72, 0x73, 0x74]),
    (0x328, [0x61, 0x65, 0x69, 0x6F, 0x75]),
    (0x32D, [0x64, 0x65, 0x6C, 0x6E, 0x74, 0x75]),
    (0x32E, [0x68]),
    (0x330, [0x65, 0x69, 0x75]),
    (0x331, [0x62, 0x64, 0x68, 0x6B, 0x6C, 0x6E, 0x72, 0x74, 0x7A]),
    (0x338, [0x3C, 0x3D, 0x3E, 0x2190, 0x2192, 0x2194, 0x21D0, 0x21D2, 0x21D4, 0x2203, 0x2208,
      0x220B, 0x2223, 0x2225, 0x223C, 0x2243, 0x2245, 0x2248, 0x224D, 0x2261, 0x2264, 0x2265,
      0x2272, 0x2273, 0x2276, 0x2277, 0x227A, 0x227B, 0x227C, 0x227D, 0x2282, 0x2283, 0x2286,
      0x2287, 0x2291, 0x2292, 0x22A2, 0x22A8, 0x22A9, 0x22AB, 0x22B2, 0x22B3, 0x22B4, 0x22B5]),
    (0x342, [0x3B1, 0x3B7, 0x3B9, 0x3C5, 0x3C9, 0x3CA, 0x3CB, 0x1F00, 0x1F01, 0x1F20, 0x1F21,
      0x1F30, 0x1F31, 0x1F50, 0x1F51, 0x1F60, 0x1F61]),
    (0x653, [0x627]),
    (0x654, [0x627, 0x648, 0x64A, 0x6C1, 0x6D2, 0x6D5]),
    (0x655, [0x627]),
    (0x93C, [0x928, 0x930, 0x933]),
    (0x9BE, [0x9C7]),
    (0x9D7, [0x9C7]),
    (0xB3E, [0xB47]),
    (0xB56, [0xB47]),
    (0xB57, [0xB47]),
    (0xBBE, [0xBC6, 0xBC7]),
    (0xBD7, [0xB92, 0xBC6]),
    (0xC56, [0xC46]),
    (0xCC2, [0xCC6]),
    (0xCD5, [0xCBF, 0xCC6, 0xCCA]),
    (0xCD6, [0xCC6]),
    (0xD3E, [0xD46, 0xD47]),
    (0xD57, [0xD46]),
    (0xDCA, [0xDD9, 0xDDC]),
    (0xDCF, [0xDD9]),
    (0xDDF, [0xDD9]),
    (0x102E, [0x1025]),
    (0x1B35, [0x1B05, 0x1B07, 0x1B09, 0x1B0B, 0x1B0D, 0x1B11, 0x1B3A, 0x1B3C, 0x1B3E, 0x1B3F,
      0x1B42]),
    (0x3099, [0x3046, 0x304B, 0x304D, 0x304F, 0x3051, 0x3053, 0x3055, 0x3057, 0x3059, 0x305B,
      0x305D, 0x305F, 0x3061, 0x3064, 0x3066, 0x3068, 0x306F, 0x3072, 0x3075, 0x3078, 0x307B,
      0x309D, 0x30A6, 0x30AB, 0x30AD, 0x30AF, 0x30B1, 0x30B3, 0x30B5, 0x30B7, 0x30B9, 0x30BB,
      0x30BD, 0x30BF, 0x30C1, 0x30C4, 0x30C6, 0x30C8, 0x30CF, 0x30D2, 0x30D5, 0x30D8, 0x30DB,
      0x30EF, 0x30F0, 0x30F1, 0x30F2, 0x30FD]),
    (0x309A, [0x306F, 0x3072, 0x3075, 0x3078, 0x307B, 0x30CF, 0x30D2, 0x30D5, 0x30D8, 0x30DB]),
    (0x110BA, [0x11099, 0x1109B, 0x110A5]),
    (0x11127, [0x11131, 0x11132]),
    (0x1133E, [0x11347]),
    (0x11357, [0x11347]),
    (0x114B0, [0x114B9]),
    (0x114BA, [0x114B9]),
    (0x114BD, [0x114B9]),
    (0x115AF, [0x115B8, 0x115B9]),
    (0x11930, [0x11935])]

/-- The class of a mark; zero for what is not a mark that moves. -/
def combiningClass (c : Char) : Nat :=
  let n := c.toNat
  match (classRanges ++ lowerClassRanges ++ upperClassRanges).find? fun (_, first, last) =>
    first ≤ n && n ≤ last with
  | some (k, _, _) => k
  | none => 0

/-- Whether two characters are written as one: a letter and a mark, or the parts of a syllable of
Korean. -/
def composes (letter mark : Char) : Bool :=
  let n := letter.toNat
  let m := mark.toNat
  (compositions.lookup m).any (·.contains n) ||
    0x1100 ≤ n && n ≤ 0x1112 && 0x1161 ≤ m && m ≤ 0x1175 ||
    0xAC00 ≤ n && n ≤ 0xD7A3 && (n - 0xAC00) % 28 == 0 && 0x11A8 ≤ m && m ≤ 0x11C2

/-- Whether a text is composed after a letter and marks on it, the last of which has a class. -/
def isComposedAfter (letter? : Option Char) (last : Nat) : List Char → Bool
  | [] => true
  | c :: rest =>
    let k := combiningClass c
    let inTheWay := last ≠ 0 ∧ k ≤ last
    if k ≠ 0 ∧ k < last ∨ ¬inTheWay ∧ letter?.any (composes · c) then false
    else if k = 0 then isComposedAfter (some c) 0 rest
    else isComposedAfter letter? k rest

def isComposed (text : List Char) : Bool := isComposedAfter none 0 text

end DeepLink.Url.Domain
