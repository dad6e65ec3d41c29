import Highlight.Unicode.Ranges

set_option autoImplicit false

/-! The general categories of Unicode, version 16. Each character has one of them; the tables give
the ranges of each, the first code point before the last. -/

namespace Highlight.Unicode

/-- The categories by their two letters, of which the first names the group: letters, marks,
numbers, punctuation, symbols, separators and others. -/
inductive Category where
  | lu | ll | lt | lm | lo
  | mn | mc | me
  | nd | nl | no
  | pc | pd | ps | pe | pi | pf | po
  | sm | sc | sk | so
  | zs | zl | zp
  | cc | cf | cs | co | cn
deriving DecidableEq, Repr, Inhabited

/-- The letters, without the ranges in which the case alternates. -/
def letterTable : Array (Nat × Nat × Category) := #[
  (65, 90, .lu), (97, 122, .ll), (170, 170, .lo), (181, 181, .ll), (186, 186, .lo), (192, 214, .lu),
  (216, 222, .lu), (223, 246, .ll), (248, 255, .ll), (310, 310, .lu), (311, 312, .ll),
  (327, 327, .lu), (328, 329, .ll), (376, 377, .lu), (378, 378, .ll), (379, 379, .lu),
  (380, 380, .ll), (381, 381, .lu), (382, 384, .ll), (385, 386, .lu), (387, 387, .ll),
  (388, 388, .lu), (389, 389, .ll), (390, 391, .lu), (392, 392, .ll), (393, 395, .lu),
  (396, 397, .ll), (398, 401, .lu), (402, 402, .ll), (403, 404, .lu), (405, 405, .ll),
  (406, 408, .lu), (409, 411, .ll), (412, 413, .lu), (414, 414, .ll), (415, 416, .lu),
  (417, 417, .ll), (422, 423, .lu), (424, 424, .ll), (425, 425, .lu), (426, 427, .ll),
  (428, 428, .lu), (429, 429, .ll), (430, 431, .lu), (432, 432, .ll), (433, 435, .lu),
  (436, 436, .ll), (437, 437, .lu), (438, 438, .ll), (439, 440, .lu), (441, 442, .ll),
  (443, 443, .lo), (444, 444, .lu), (445, 447, .ll), (448, 451, .lo), (452, 452, .lu),
  (453, 453, .lt), (454, 454, .ll), (455, 455, .lu), (456, 456, .lt), (457, 457, .ll),
  (458, 458, .lu), (459, 459, .lt), (460, 460, .ll), (475, 475, .lu), (476, 477, .ll),
  (494, 494, .lu), (495, 496, .ll), (497, 497, .lu), (498, 498, .lt), (499, 499, .ll),
  (500, 500, .lu), (501, 501, .ll), (502, 504, .lu), (505, 505, .ll), (562, 562, .lu),
  (563, 569, .ll), (570, 571, .lu), (572, 572, .ll), (573, 574, .lu), (575, 576, .ll),
  (577, 577, .lu), (578, 578, .ll), (579, 582, .lu), (583, 583, .ll), (590, 590, .lu),
  (591, 659, .ll), (660, 660, .lo), (661, 687, .ll), (688, 705, .lm), (710, 721, .lm),
  (736, 740, .lm), (748, 748, .lm), (750, 750, .lm), (884, 884, .lm), (886, 886, .lu),
  (887, 887, .ll), (890, 890, .lm), (891, 893, .ll), (895, 895, .lu), (902, 902, .lu),
  (904, 906, .lu), (908, 908, .lu), (910, 911, .lu), (912, 912, .ll), (913, 929, .lu),
  (931, 939, .lu), (940, 974, .ll), (975, 975, .lu), (976, 977, .ll), (978, 980, .lu),
  (981, 983, .ll), (1006, 1006, .lu), (1007, 1011, .ll), (1012, 1012, .lu), (1013, 1013, .ll),
  (1015, 1015, .lu), (1016, 1016, .ll), (1017, 1018, .lu), (1019, 1020, .ll), (1021, 1071, .lu),
  (1072, 1119, .ll), (1216, 1217, .lu), (1218, 1218, .ll), (1229, 1229, .lu), (1230, 1231, .ll),
  (1329, 1366, .lu), (1369, 1369, .lm), (1376, 1416, .ll), (1488, 1514, .lo), (1519, 1522, .lo),
  (1568, 1599, .lo), (1600, 1600, .lm), (1601, 1610, .lo), (1646, 1647, .lo), (1649, 1747, .lo),
  (1749, 1749, .lo), (1765, 1766, .lm), (1774, 1775, .lo), (1786, 1788, .lo), (1791, 1791, .lo),
  (1808, 1808, .lo), (1810, 1839, .lo), (1869, 1957, .lo), (1969, 1969, .lo), (1994, 2026, .lo),
  (2036, 2037, .lm), (2042, 2042, .lm), (2048, 2069, .lo), (2074, 2074, .lm), (2084, 2084, .lm),
  (2088, 2088, .lm), (2112, 2136, .lo), (2144, 2154, .lo), (2160, 2183, .lo), (2185, 2190, .lo),
  (2208, 2248, .lo), (2249, 2249, .lm), (2308, 2361, .lo), (2365, 2365, .lo), (2384, 2384, .lo),
  (2392, 2401, .lo), (2417, 2417, .lm), (2418, 2432, .lo), (2437, 2444, .lo), (2447, 2448, .lo),
  (2451, 2472, .lo), (2474, 2480, .lo), (2482, 2482, .lo), (2486, 2489, .lo), (2493, 2493, .lo),
  (2510, 2510, .lo), (2524, 2525, .lo), (2527, 2529, .lo), (2544, 2545, .lo), (2556, 2556, .lo),
  (2565, 2570, .lo), (2575, 2576, .lo), (2579, 2600, .lo), (2602, 2608, .lo), (2610, 2611, .lo),
  (2613, 2614, .lo), (2616, 2617, .lo), (2649, 2652, .lo), (2654, 2654, .lo), (2674, 2676, .lo),
  (2693, 2701, .lo), (2703, 2705, .lo), (2707, 2728, .lo), (2730, 2736, .lo), (2738, 2739, .lo),
  (2741, 2745, .lo), (2749, 2749, .lo), (2768, 2768, .lo), (2784, 2785, .lo), (2809, 2809, .lo),
  (2821, 2828, .lo), (2831, 2832, .lo), (2835, 2856, .lo), (2858, 2864, .lo), (2866, 2867, .lo),
  (2869, 2873, .lo), (2877, 2877, .lo), (2908, 2909, .lo), (2911, 2913, .lo), (2929, 2929, .lo),
  (2947, 2947, .lo), (2949, 2954, .lo), (2958, 2960, .lo), (2962, 2965, .lo), (2969, 2970, .lo),
  (2972, 2972, .lo), (2974, 2975, .lo), (2979, 2980, .lo), (2984, 2986, .lo), (2990, 3001, .lo),
  (3024, 3024, .lo), (3077, 3084, .lo), (3086, 3088, .lo), (3090, 3112, .lo), (3114, 3129, .lo),
  (3133, 3133, .lo), (3160, 3162, .lo), (3165, 3165, .lo), (3168, 3169, .lo), (3200, 3200, .lo),
  (3205, 3212, .lo), (3214, 3216, .lo), (3218, 3240, .lo), (3242, 3251, .lo), (3253, 3257, .lo),
  (3261, 3261, .lo), (3293, 3294, .lo), (3296, 3297, .lo), (3313, 3314, .lo), (3332, 3340, .lo),
  (3342, 3344, .lo), (3346, 3386, .lo), (3389, 3389, .lo), (3406, 3406, .lo), (3412, 3414, .lo),
  (3423, 3425, .lo), (3450, 3455, .lo), (3461, 3478, .lo), (3482, 3505, .lo), (3507, 3515, .lo),
  (3517, 3517, .lo), (3520, 3526, .lo), (3585, 3632, .lo), (3634, 3635, .lo), (3648, 3653, .lo),
  (3654, 3654, .lm), (3713, 3714, .lo), (3716, 3716, .lo), (3718, 3722, .lo), (3724, 3747, .lo),
  (3749, 3749, .lo), (3751, 3760, .lo), (3762, 3763, .lo), (3773, 3773, .lo), (3776, 3780, .lo),
  (3782, 3782, .lm), (3804, 3807, .lo), (3840, 3840, .lo), (3904, 3911, .lo), (3913, 3948, .lo),
  (3976, 3980, .lo), (4096, 4138, .lo), (4159, 4159, .lo), (4176, 4181, .lo), (4186, 4189, .lo),
  (4193, 4193, .lo), (4197, 4198, .lo), (4206, 4208, .lo), (4213, 4225, .lo), (4238, 4238, .lo),
  (4256, 4293, .lu), (4295, 4295, .lu), (4301, 4301, .lu), (4304, 4346, .ll), (4348, 4348, .lm),
  (4349, 4351, .ll), (4352, 4680, .lo), (4682, 4685, .lo), (4688, 4694, .lo), (4696, 4696, .lo),
  (4698, 4701, .lo), (4704, 4744, .lo), (4746, 4749, .lo), (4752, 4784, .lo), (4786, 4789, .lo),
  (4792, 4798, .lo), (4800, 4800, .lo), (4802, 4805, .lo), (4808, 4822, .lo), (4824, 4880, .lo),
  (4882, 4885, .lo), (4888, 4954, .lo), (4992, 5007, .lo), (5024, 5109, .lu), (5112, 5117, .ll),
  (5121, 5740, .lo), (5743, 5759, .lo), (5761, 5786, .lo), (5792, 5866, .lo), (5873, 5880, .lo),
  (5888, 5905, .lo), (5919, 5937, .lo), (5952, 5969, .lo), (5984, 5996, .lo), (5998, 6000, .lo),
  (6016, 6067, .lo), (6103, 6103, .lm), (6108, 6108, .lo), (6176, 6210, .lo), (6211, 6211, .lm),
  (6212, 6264, .lo), (6272, 6276, .lo), (6279, 6312, .lo), (6314, 6314, .lo), (6320, 6389, .lo),
  (6400, 6430, .lo), (6480, 6509, .lo), (6512, 6516, .lo), (6528, 6571, .lo), (6576, 6601, .lo),
  (6656, 6678, .lo), (6688, 6740, .lo), (6823, 6823, .lm), (6917, 6963, .lo), (6981, 6988, .lo),
  (7043, 7072, .lo), (7086, 7087, .lo), (7098, 7141, .lo), (7168, 7203, .lo), (7245, 7247, .lo),
  (7258, 7287, .lo), (7288, 7293, .lm), (7296, 7304, .ll), (7305, 7305, .lu), (7306, 7306, .ll),
  (7312, 7354, .lu), (7357, 7359, .lu), (7401, 7404, .lo), (7406, 7411, .lo), (7413, 7414, .lo),
  (7418, 7418, .lo), (7424, 7467, .ll), (7468, 7530, .lm), (7531, 7543, .ll), (7544, 7544, .lm),
  (7545, 7578, .ll), (7579, 7615, .lm), (7828, 7828, .lu), (7829, 7837, .ll), (7934, 7934, .lu),
  (7935, 7943, .ll), (7944, 7951, .lu), (7952, 7957, .ll), (7960, 7965, .lu), (7968, 7975, .ll),
  (7976, 7983, .lu), (7984, 7991, .ll), (7992, 7999, .lu), (8000, 8005, .ll), (8008, 8013, .lu),
  (8016, 8023, .ll), (8025, 8025, .lu), (8027, 8027, .lu), (8029, 8029, .lu), (8031, 8031, .lu),
  (8032, 8039, .ll), (8040, 8047, .lu), (8048, 8061, .ll), (8064, 8071, .ll), (8072, 8079, .lt),
  (8080, 8087, .ll), (8088, 8095, .lt), (8096, 8103, .ll), (8104, 8111, .lt), (8112, 8116, .ll),
  (8118, 8119, .ll), (8120, 8123, .lu), (8124, 8124, .lt), (8126, 8126, .ll), (8130, 8132, .ll),
  (8134, 8135, .ll), (8136, 8139, .lu), (8140, 8140, .lt), (8144, 8147, .ll), (8150, 8151, .ll),
  (8152, 8155, .lu), (8160, 8167, .ll), (8168, 8172, .lu), (8178, 8180, .ll), (8182, 8183, .ll),
  (8184, 8187, .lu), (8188, 8188, .lt), (8305, 8305, .lm), (8319, 8319, .lm), (8336, 8348, .lm),
  (8450, 8450, .lu), (8455, 8455, .lu), (8458, 8458, .ll), (8459, 8461, .lu), (8462, 8463, .ll),
  (8464, 8466, .lu), (8467, 8467, .ll), (8469, 8469, .lu), (8473, 8477, .lu), (8484, 8484, .lu),
  (8486, 8486, .lu), (8488, 8488, .lu), (8490, 8493, .lu), (8495, 8495, .ll), (8496, 8499, .lu),
  (8500, 8500, .ll), (8501, 8504, .lo), (8505, 8505, .ll), (8508, 8509, .ll), (8510, 8511, .lu),
  (8517, 8517, .lu), (8518, 8521, .ll), (8526, 8526, .ll), (8579, 8579, .lu), (8580, 8580, .ll),
  (11264, 11311, .lu), (11312, 11359, .ll), (11360, 11360, .lu), (11361, 11361, .ll),
  (11362, 11364, .lu), (11365, 11366, .ll), (11373, 11376, .lu), (11377, 11377, .ll),
  (11378, 11378, .lu), (11379, 11380, .ll), (11381, 11381, .lu), (11382, 11387, .ll),
  (11388, 11389, .lm), (11390, 11392, .lu), (11393, 11393, .ll), (11490, 11490, .lu),
  (11491, 11492, .ll), (11506, 11506, .lu), (11507, 11507, .ll), (11520, 11557, .ll),
  (11559, 11559, .ll), (11565, 11565, .ll), (11568, 11623, .lo), (11631, 11631, .lm),
  (11648, 11670, .lo), (11680, 11686, .lo), (11688, 11694, .lo), (11696, 11702, .lo),
  (11704, 11710, .lo), (11712, 11718, .lo), (11720, 11726, .lo), (11728, 11734, .lo),
  (11736, 11742, .lo), (11823, 11823, .lm), (12293, 12293, .lm), (12294, 12294, .lo),
  (12337, 12341, .lm), (12347, 12347, .lm), (12348, 12348, .lo), (12353, 12438, .lo),
  (12445, 12446, .lm), (12447, 12447, .lo), (12449, 12538, .lo), (12540, 12542, .lm),
  (12543, 12543, .lo), (12549, 12591, .lo), (12593, 12686, .lo), (12704, 12735, .lo),
  (12784, 12799, .lo), (13312, 19903, .lo), (19968, 40980, .lo), (40981, 40981, .lm),
  (40982, 42124, .lo), (42192, 42231, .lo), (42232, 42237, .lm), (42240, 42507, .lo),
  (42508, 42508, .lm), (42512, 42527, .lo), (42538, 42539, .lo), (42606, 42606, .lo),
  (42623, 42623, .lm), (42652, 42653, .lm), (42656, 42725, .lo), (42775, 42783, .lm),
  (42798, 42798, .lu), (42799, 42801, .ll), (42864, 42864, .lm), (42865, 42872, .ll),
  (42877, 42878, .lu), (42879, 42879, .ll), (42888, 42888, .lm), (42895, 42895, .lo),
  (42896, 42896, .lu), (42897, 42897, .ll), (42898, 42898, .lu), (42899, 42901, .ll),
  (42922, 42926, .lu), (42927, 42927, .ll), (42928, 42932, .lu), (42933, 42933, .ll),
  (42948, 42951, .lu), (42952, 42952, .ll), (42953, 42953, .lu), (42954, 42954, .ll),
  (42955, 42956, .lu), (42957, 42957, .ll), (42960, 42960, .lu), (42961, 42961, .ll),
  (42963, 42963, .ll), (42965, 42965, .ll), (42972, 42972, .lu), (42994, 42996, .lm),
  (42997, 42997, .lu), (42998, 42998, .ll), (42999, 42999, .lo), (43000, 43001, .lm),
  (43002, 43002, .ll), (43003, 43009, .lo), (43011, 43013, .lo), (43015, 43018, .lo),
  (43020, 43042, .lo), (43072, 43123, .lo), (43138, 43187, .lo), (43250, 43255, .lo),
  (43259, 43259, .lo), (43261, 43262, .lo), (43274, 43301, .lo), (43312, 43334, .lo),
  (43360, 43388, .lo), (43396, 43442, .lo), (43471, 43471, .lm), (43488, 43492, .lo),
  (43494, 43494, .lm), (43495, 43503, .lo), (43514, 43518, .lo), (43520, 43560, .lo),
  (43584, 43586, .lo), (43588, 43595, .lo), (43616, 43631, .lo), (43632, 43632, .lm),
  (43633, 43638, .lo), (43642, 43642, .lo), (43646, 43695, .lo), (43697, 43697, .lo),
  (43701, 43702, .lo), (43705, 43709, .lo), (43712, 43712, .lo), (43714, 43714, .lo),
  (43739, 43740, .lo), (43741, 43741, .lm), (43744, 43754, .lo), (43762, 43762, .lo),
  (43763, 43764, .lm), (43777, 43782, .lo), (43785, 43790, .lo), (43793, 43798, .lo),
  (43808, 43814, .lo), (43816, 43822, .lo), (43824, 43866, .ll), (43868, 43871, .lm),
  (43872, 43880, .ll), (43881, 43881, .lm), (43888, 43967, .ll), (43968, 44002, .lo),
  (44032, 55203, .lo), (55216, 55238, .lo), (55243, 55291, .lo), (63744, 64109, .lo),
  (64112, 64217, .lo), (64256, 64262, .ll), (64275, 64279, .ll), (64285, 64285, .lo),
  (64287, 64296, .lo), (64298, 64310, .lo), (64312, 64316, .lo), (64318, 64318, .lo),
  (64320, 64321, .lo), (64323, 64324, .lo), (64326, 64433, .lo), (64467, 64829, .lo),
  (64848, 64911, .lo), (64914, 64967, .lo), (65008, 65019, .lo), (65136, 65140, .lo),
  (65142, 65276, .lo), (65313, 65338, .lu), (65345, 65370, .ll), (65382, 65391, .lo),
  (65392, 65392, .lm), (65393, 65437, .lo), (65438, 65439, .lm), (65440, 65470, .lo),
  (65474, 65479, .lo), (65482, 65487, .lo), (65490, 65495, .lo), (65498, 65500, .lo),
  (65536, 65547, .lo), (65549, 65574, .lo), (65576, 65594, .lo), (65596, 65597, .lo),
  (65599, 65613, .lo), (65616, 65629, .lo), (65664, 65786, .lo), (66176, 66204, .lo),
  (66208, 66256, .lo), (66304, 66335, .lo), (66349, 66368, .lo), (66370, 66377, .lo),
  (66384, 66421, .lo), (66432, 66461, .lo), (66464, 66499, .lo), (66504, 66511, .lo),
  (66560, 66599, .lu), (66600, 66639, .ll), (66640, 66717, .lo), (66736, 66771, .lu),
  (66776, 66811, .ll), (66816, 66855, .lo), (66864, 66915, .lo), (66928, 66938, .lu),
  (66940, 66954, .lu), (66956, 66962, .lu), (66964, 66965, .lu), (66967, 66977, .ll),
  (66979, 66993, .ll), (66995, 67001, .ll), (67003, 67004, .ll), (67008, 67059, .lo),
  (67072, 67382, .lo), (67392, 67413, .lo), (67424, 67431, .lo), (67456, 67461, .lm),
  (67463, 67504, .lm), (67506, 67514, .lm), (67584, 67589, .lo), (67592, 67592, .lo),
  (67594, 67637, .lo), (67639, 67640, .lo), (67644, 67644, .lo), (67647, 67669, .lo),
  (67680, 67702, .lo), (67712, 67742, .lo), (67808, 67826, .lo), (67828, 67829, .lo),
  (67840, 67861, .lo), (67872, 67897, .lo), (67968, 68023, .lo), (68030, 68031, .lo),
  (68096, 68096, .lo), (68112, 68115, .lo), (68117, 68119, .lo), (68121, 68149, .lo),
  (68192, 68220, .lo), (68224, 68252, .lo), (68288, 68295, .lo), (68297, 68324, .lo),
  (68352, 68405, .lo), (68416, 68437, .lo), (68448, 68466, .lo), (68480, 68497, .lo),
  (68608, 68680, .lo), (68736, 68786, .lu), (68800, 68850, .ll), (68864, 68899, .lo),
  (68938, 68941, .lo), (68942, 68942, .lm), (68943, 68943, .lo), (68944, 68965, .lu),
  (68975, 68975, .lm), (68976, 68997, .ll), (69248, 69289, .lo), (69296, 69297, .lo),
  (69314, 69316, .lo), (69376, 69404, .lo), (69415, 69415, .lo), (69424, 69445, .lo),
  (69488, 69505, .lo), (69552, 69572, .lo), (69600, 69622, .lo), (69635, 69687, .lo),
  (69745, 69746, .lo), (69749, 69749, .lo), (69763, 69807, .lo), (69840, 69864, .lo),
  (69891, 69926, .lo), (69956, 69956, .lo), (69959, 69959, .lo), (69968, 70002, .lo),
  (70006, 70006, .lo), (70019, 70066, .lo), (70081, 70084, .lo), (70106, 70106, .lo),
  (70108, 70108, .lo), (70144, 70161, .lo), (70163, 70187, .lo), (70207, 70208, .lo),
  (70272, 70278, .lo), (70280, 70280, .lo), (70282, 70285, .lo), (70287, 70301, .lo),
  (70303, 70312, .lo), (70320, 70366, .lo), (70405, 70412, .lo), (70415, 70416, .lo),
  (70419, 70440, .lo), (70442, 70448, .lo), (70450, 70451, .lo), (70453, 70457, .lo),
  (70461, 70461, .lo), (70480, 70480, .lo), (70493, 70497, .lo), (70528, 70537, .lo),
  (70539, 70539, .lo), (70542, 70542, .lo), (70544, 70581, .lo), (70583, 70583, .lo),
  (70609, 70609, .lo), (70611, 70611, .lo), (70656, 70708, .lo), (70727, 70730, .lo),
  (70751, 70753, .lo), (70784, 70831, .lo), (70852, 70853, .lo), (70855, 70855, .lo),
  (71040, 71086, .lo), (71128, 71131, .lo), (71168, 71215, .lo), (71236, 71236, .lo),
  (71296, 71338, .lo), (71352, 71352, .lo), (71424, 71450, .lo), (71488, 71494, .lo),
  (71680, 71723, .lo), (71840, 71871, .lu), (71872, 71903, .ll), (71935, 71942, .lo),
  (71945, 71945, .lo), (71948, 71955, .lo), (71957, 71958, .lo), (71960, 71983, .lo),
  (71999, 71999, .lo), (72001, 72001, .lo), (72096, 72103, .lo), (72106, 72144, .lo),
  (72161, 72161, .lo), (72163, 72163, .lo), (72192, 72192, .lo), (72203, 72242, .lo),
  (72250, 72250, .lo), (72272, 72272, .lo), (72284, 72329, .lo), (72349, 72349, .lo),
  (72368, 72440, .lo), (72640, 72672, .lo), (72704, 72712, .lo), (72714, 72750, .lo),
  (72768, 72768, .lo), (72818, 72847, .lo), (72960, 72966, .lo), (72968, 72969, .lo),
  (72971, 73008, .lo), (73030, 73030, .lo), (73056, 73061, .lo), (73063, 73064, .lo),
  (73066, 73097, .lo), (73112, 73112, .lo), (73440, 73458, .lo), (73474, 73474, .lo),
  (73476, 73488, .lo), (73490, 73523, .lo), (73648, 73648, .lo), (73728, 74649, .lo),
  (74880, 75075, .lo), (77712, 77808, .lo), (77824, 78895, .lo), (78913, 78918, .lo),
  (78944, 82938, .lo), (82944, 83526, .lo), (90368, 90397, .lo), (92160, 92728, .lo),
  (92736, 92766, .lo), (92784, 92862, .lo), (92880, 92909, .lo), (92928, 92975, .lo),
  (92992, 92995, .lm), (93027, 93047, .lo), (93053, 93071, .lo), (93504, 93506, .lm),
  (93507, 93546, .lo), (93547, 93548, .lm), (93760, 93791, .lu), (93792, 93823, .ll),
  (93952, 94026, .lo), (94032, 94032, .lo), (94099, 94111, .lm), (94176, 94177, .lm),
  (94179, 94179, .lm), (94208, 100343, .lo), (100352, 101589, .lo), (101631, 101640, .lo),
  (110576, 110579, .lm), (110581, 110587, .lm), (110589, 110590, .lm), (110592, 110882, .lo),
  (110898, 110898, .lo), (110928, 110930, .lo), (110933, 110933, .lo), (110948, 110951, .lo),
  (110960, 111355, .lo), (113664, 113770, .lo), (113776, 113788, .lo), (113792, 113800, .lo),
  (113808, 113817, .lo), (119808, 119833, .lu), (119834, 119859, .ll), (119860, 119885, .lu),
  (119886, 119892, .ll), (119894, 119911, .ll), (119912, 119937, .lu), (119938, 119963, .ll),
  (119964, 119964, .lu), (119966, 119967, .lu), (119970, 119970, .lu), (119973, 119974, .lu),
  (119977, 119980, .lu), (119982, 119989, .lu), (119990, 119993, .ll), (119995, 119995, .ll),
  (119997, 120003, .ll), (120005, 120015, .ll), (120016, 120041, .lu), (120042, 120067, .ll),
  (120068, 120069, .lu), (120071, 120074, .lu), (120077, 120084, .lu), (120086, 120092, .lu),
  (120094, 120119, .ll), (120120, 120121, .lu), (120123, 120126, .lu), (120128, 120132, .lu),
  (120134, 120134, .lu), (120138, 120144, .lu), (120146, 120171, .ll), (120172, 120197, .lu),
  (120198, 120223, .ll), (120224, 120249, .lu), (120250, 120275, .ll), (120276, 120301, .lu),
  (120302, 120327, .ll), (120328, 120353, .lu), (120354, 120379, .ll), (120380, 120405, .lu),
  (120406, 120431, .ll), (120432, 120457, .lu), (120458, 120485, .ll), (120488, 120512, .lu),
  (120514, 120538, .ll), (120540, 120545, .ll), (120546, 120570, .lu), (120572, 120596, .ll),
  (120598, 120603, .ll), (120604, 120628, .lu), (120630, 120654, .ll), (120656, 120661, .ll),
  (120662, 120686, .lu), (120688, 120712, .ll), (120714, 120719, .ll), (120720, 120744, .lu),
  (120746, 120770, .ll), (120772, 120777, .ll), (120778, 120778, .lu), (120779, 120779, .ll),
  (122624, 122633, .ll), (122634, 122634, .lo), (122635, 122654, .ll), (122661, 122666, .ll),
  (122928, 122989, .lm), (123136, 123180, .lo), (123191, 123197, .lm), (123214, 123214, .lo),
  (123536, 123565, .lo), (123584, 123627, .lo), (124112, 124138, .lo), (124139, 124139, .lm),
  (124368, 124397, .lo), (124400, 124400, .lo), (124896, 124902, .lo), (124904, 124907, .lo),
  (124909, 124910, .lo), (124912, 124926, .lo), (124928, 125124, .lo), (125184, 125217, .lu),
  (125218, 125251, .ll), (125259, 125259, .lm), (126464, 126467, .lo), (126469, 126495, .lo),
  (126497, 126498, .lo), (126500, 126500, .lo), (126503, 126503, .lo), (126505, 126514, .lo),
  (126516, 126519, .lo), (126521, 126521, .lo), (126523, 126523, .lo), (126530, 126530, .lo),
  (126535, 126535, .lo), (126537, 126537, .lo), (126539, 126539, .lo), (126541, 126543, .lo),
  (126545, 126546, .lo), (126548, 126548, .lo), (126551, 126551, .lo), (126553, 126553, .lo),
  (126555, 126555, .lo), (126557, 126557, .lo), (126559, 126559, .lo), (126561, 126562, .lo),
  (126564, 126564, .lo), (126567, 126570, .lo), (126572, 126578, .lo), (126580, 126583, .lo),
  (126585, 126588, .lo), (126590, 126590, .lo), (126592, 126601, .lo), (126603, 126619, .lo),
  (126625, 126627, .lo), (126629, 126633, .lo), (126635, 126651, .lo), (131072, 173791, .lo),
  (173824, 177977, .lo), (177984, 178205, .lo), (178208, 183969, .lo), (183984, 191456, .lo),
  (191472, 192093, .lo), (194560, 195101, .lo), (196608, 201546, .lo), (201552, 205743, .lo)]

/-- Ranges in which capital and small letters take turns, a capital first. -/
def alternatingTable : Array (Nat × Nat) := #[
  (256, 309), (313, 326), (330, 375), (418, 421), (461, 474), (478, 493), (506, 561), (584, 589),
  (880, 883), (984, 1005), (1120, 1153), (1162, 1215), (1219, 1228), (1232, 1327), (7680, 7827),
  (7838, 7933), (11367, 11372), (11394, 11489), (11499, 11502), (42560, 42605), (42624, 42651),
  (42786, 42797), (42802, 42863), (42873, 42876), (42880, 42887), (42891, 42894), (42902, 42921),
  (42934, 42947), (42966, 42971)]

def markTable : Array (Nat × Nat × Category) := #[
  (768, 879, .mn), (1155, 1159, .mn), (1160, 1161, .me), (1425, 1469, .mn), (1471, 1471, .mn),
  (1473, 1474, .mn), (1476, 1477, .mn), (1479, 1479, .mn), (1552, 1562, .mn), (1611, 1631, .mn),
  (1648, 1648, .mn), (1750, 1756, .mn), (1759, 1764, .mn), (1767, 1768, .mn), (1770, 1773, .mn),
  (1809, 1809, .mn), (1840, 1866, .mn), (1958, 1968, .mn), (2027, 2035, .mn), (2045, 2045, .mn),
  (2070, 2073, .mn), (2075, 2083, .mn), (2085, 2087, .mn), (2089, 2093, .mn), (2137, 2139, .mn),
  (2199, 2207, .mn), (2250, 2273, .mn), (2275, 2306, .mn), (2307, 2307, .mc), (2362, 2362, .mn),
  (2363, 2363, .mc), (2364, 2364, .mn), (2366, 2368, .mc), (2369, 2376, .mn), (2377, 2380, .mc),
  (2381, 2381, .mn), (2382, 2383, .mc), (2385, 2391, .mn), (2402, 2403, .mn), (2433, 2433, .mn),
  (2434, 2435, .mc), (2492, 2492, .mn), (2494, 2496, .mc), (2497, 2500, .mn), (2503, 2504, .mc),
  (2507, 2508, .mc), (2509, 2509, .mn), (2519, 2519, .mc), (2530, 2531, .mn), (2558, 2558, .mn),
  (2561, 2562, .mn), (2563, 2563, .mc), (2620, 2620, .mn), (2622, 2624, .mc), (2625, 2626, .mn),
  (2631, 2632, .mn), (2635, 2637, .mn), (2641, 2641, .mn), (2672, 2673, .mn), (2677, 2677, .mn),
  (2689, 2690, .mn), (2691, 2691, .mc), (2748, 2748, .mn), (2750, 2752, .mc), (2753, 2757, .mn),
  (2759, 2760, .mn), (2761, 2761, .mc), (2763, 2764, .mc), (2765, 2765, .mn), (2786, 2787, .mn),
  (2810, 2815, .mn), (2817, 2817, .mn), (2818, 2819, .mc), (2876, 2876, .mn), (2878, 2878, .mc),
  (2879, 2879, .mn), (2880, 2880, .mc), (2881, 2884, .mn), (2887, 2888, .mc), (2891, 2892, .mc),
  (2893, 2893, .mn), (2901, 2902, .mn), (2903, 2903, .mc), (2914, 2915, .mn), (2946, 2946, .mn),
  (3006, 3007, .mc), (3008, 3008, .mn), (3009, 3010, .mc), (3014, 3016, .mc), (3018, 3020, .mc),
  (3021, 3021, .mn), (3031, 3031, .mc), (3072, 3072, .mn), (3073, 3075, .mc), (3076, 3076, .mn),
  (3132, 3132, .mn), (3134, 3136, .mn), (3137, 3140, .mc), (3142, 3144, .mn), (3146, 3149, .mn),
  (3157, 3158, .mn), (3170, 3171, .mn), (3201, 3201, .mn), (3202, 3203, .mc), (3260, 3260, .mn),
  (3262, 3262, .mc), (3263, 3263, .mn), (3264, 3268, .mc), (3270, 3270, .mn), (3271, 3272, .mc),
  (3274, 3275, .mc), (3276, 3277, .mn), (3285, 3286, .mc), (3298, 3299, .mn), (3315, 3315, .mc),
  (3328, 3329, .mn), (3330, 3331, .mc), (3387, 3388, .mn), (3390, 3392, .mc), (3393, 3396, .mn),
  (3398, 3400, .mc), (3402, 3404, .mc), (3405, 3405, .mn), (3415, 3415, .mc), (3426, 3427, .mn),
  (3457, 3457, .mn), (3458, 3459, .mc), (3530, 3530, .mn), (3535, 3537, .mc), (3538, 3540, .mn),
  (3542, 3542, .mn), (3544, 3551, .mc), (3570, 3571, .mc), (3633, 3633, .mn), (3636, 3642, .mn),
  (3655, 3662, .mn), (3761, 3761, .mn), (3764, 3772, .mn), (3784, 3790, .mn), (3864, 3865, .mn),
  (3893, 3893, .mn), (3895, 3895, .mn), (3897, 3897, .mn), (3902, 3903, .mc), (3953, 3966, .mn),
  (3967, 3967, .mc), (3968, 3972, .mn), (3974, 3975, .mn), (3981, 3991, .mn), (3993, 4028, .mn),
  (4038, 4038, .mn), (4139, 4140, .mc), (4141, 4144, .mn), (4145, 4145, .mc), (4146, 4151, .mn),
  (4152, 4152, .mc), (4153, 4154, .mn), (4155, 4156, .mc), (4157, 4158, .mn), (4182, 4183, .mc),
  (4184, 4185, .mn), (4190, 4192, .mn), (4194, 4196, .mc), (4199, 4205, .mc), (4209, 4212, .mn),
  (4226, 4226, .mn), (4227, 4228, .mc), (4229, 4230, .mn), (4231, 4236, .mc), (4237, 4237, .mn),
  (4239, 4239, .mc), (4250, 4252, .mc), (4253, 4253, .mn), (4957, 4959, .mn), (5906, 5908, .mn),
  (5909, 5909, .mc), (5938, 5939, .mn), (5940, 5940, .mc), (5970, 5971, .mn), (6002, 6003, .mn),
  (6068, 6069, .mn), (6070, 6070, .mc), (6071, 6077, .mn), (6078, 6085, .mc), (6086, 6086, .mn),
  (6087, 6088, .mc), (6089, 6099, .mn), (6109, 6109, .mn), (6155, 6157, .mn), (6159, 6159, .mn),
  (6277, 6278, .mn), (6313, 6313, .mn), (6432, 6434, .mn), (6435, 6438, .mc), (6439, 6440, .mn),
  (6441, 6443, .mc), (6448, 6449, .mc), (6450, 6450, .mn), (6451, 6456, .mc), (6457, 6459, .mn),
  (6679, 6680, .mn), (6681, 6682, .mc), (6683, 6683, .mn), (6741, 6741, .mc), (6742, 6742, .mn),
  (6743, 6743, .mc), (6744, 6750, .mn), (6752, 6752, .mn), (6753, 6753, .mc), (6754, 6754, .mn),
  (6755, 6756, .mc), (6757, 6764, .mn), (6765, 6770, .mc), (6771, 6780, .mn), (6783, 6783, .mn),
  (6832, 6845, .mn), (6846, 6846, .me), (6847, 6862, .mn), (6912, 6915, .mn), (6916, 6916, .mc),
  (6964, 6964, .mn), (6965, 6965, .mc), (6966, 6970, .mn), (6971, 6971, .mc), (6972, 6972, .mn),
  (6973, 6977, .mc), (6978, 6978, .mn), (6979, 6980, .mc), (7019, 7027, .mn), (7040, 7041, .mn),
  (7042, 7042, .mc), (7073, 7073, .mc), (7074, 7077, .mn), (7078, 7079, .mc), (7080, 7081, .mn),
  (7082, 7082, .mc), (7083, 7085, .mn), (7142, 7142, .mn), (7143, 7143, .mc), (7144, 7145, .mn),
  (7146, 7148, .mc), (7149, 7149, .mn), (7150, 7150, .mc), (7151, 7153, .mn), (7154, 7155, .mc),
  (7204, 7211, .mc), (7212, 7219, .mn), (7220, 7221, .mc), (7222, 7223, .mn), (7376, 7378, .mn),
  (7380, 7392, .mn), (7393, 7393, .mc), (7394, 7400, .mn), (7405, 7405, .mn), (7412, 7412, .mn),
  (7415, 7415, .mc), (7416, 7417, .mn), (7616, 7679, .mn), (8400, 8412, .mn), (8413, 8416, .me),
  (8417, 8417, .mn), (8418, 8420, .me), (8421, 8432, .mn), (11503, 11505, .mn), (11647, 11647, .mn),
  (11744, 11775, .mn), (12330, 12333, .mn), (12334, 12335, .mc), (12441, 12442, .mn),
  (42607, 42607, .mn), (42608, 42610, .me), (42612, 42621, .mn), (42654, 42655, .mn),
  (42736, 42737, .mn), (43010, 43010, .mn), (43014, 43014, .mn), (43019, 43019, .mn),
  (43043, 43044, .mc), (43045, 43046, .mn), (43047, 43047, .mc), (43052, 43052, .mn),
  (43136, 43137, .mc), (43188, 43203, .mc), (43204, 43205, .mn), (43232, 43249, .mn),
  (43263, 43263, .mn), (43302, 43309, .mn), (43335, 43345, .mn), (43346, 43347, .mc),
  (43392, 43394, .mn), (43395, 43395, .mc), (43443, 43443, .mn), (43444, 43445, .mc),
  (43446, 43449, .mn), (43450, 43451, .mc), (43452, 43453, .mn), (43454, 43456, .mc),
  (43493, 43493, .mn), (43561, 43566, .mn), (43567, 43568, .mc), (43569, 43570, .mn),
  (43571, 43572, .mc), (43573, 43574, .mn), (43587, 43587, .mn), (43596, 43596, .mn),
  (43597, 43597, .mc), (43643, 43643, .mc), (43644, 43644, .mn), (43645, 43645, .mc),
  (43696, 43696, .mn), (43698, 43700, .mn), (43703, 43704, .mn), (43710, 43711, .mn),
  (43713, 43713, .mn), (43755, 43755, .mc), (43756, 43757, .mn), (43758, 43759, .mc),
  (43765, 43765, .mc), (43766, 43766, .mn), (44003, 44004, .mc), (44005, 44005, .mn),
  (44006, 44007, .mc), (44008, 44008, .mn), (44009, 44010, .mc), (44012, 44012, .mc),
  (44013, 44013, .mn), (64286, 64286, .mn), (65024, 65039, .mn), (65056, 65071, .mn),
  (66045, 66045, .mn), (66272, 66272, .mn), (66422, 66426, .mn), (68097, 68099, .mn),
  (68101, 68102, .mn), (68108, 68111, .mn), (68152, 68154, .mn), (68159, 68159, .mn),
  (68325, 68326, .mn), (68900, 68903, .mn), (68969, 68973, .mn), (69291, 69292, .mn),
  (69372, 69375, .mn), (69446, 69456, .mn), (69506, 69509, .mn), (69632, 69632, .mc),
  (69633, 69633, .mn), (69634, 69634, .mc), (69688, 69702, .mn), (69744, 69744, .mn),
  (69747, 69748, .mn), (69759, 69761, .mn), (69762, 69762, .mc), (69808, 69810, .mc),
  (69811, 69814, .mn), (69815, 69816, .mc), (69817, 69818, .mn), (69826, 69826, .mn),
  (69888, 69890, .mn), (69927, 69931, .mn), (69932, 69932, .mc), (69933, 69940, .mn),
  (69957, 69958, .mc), (70003, 70003, .mn), (70016, 70017, .mn), (70018, 70018, .mc),
  (70067, 70069, .mc), (70070, 70078, .mn), (70079, 70080, .mc), (70089, 70092, .mn),
  (70094, 70094, .mc), (70095, 70095, .mn), (70188, 70190, .mc), (70191, 70193, .mn),
  (70194, 70195, .mc), (70196, 70196, .mn), (70197, 70197, .mc), (70198, 70199, .mn),
  (70206, 70206, .mn), (70209, 70209, .mn), (70367, 70367, .mn), (70368, 70370, .mc),
  (70371, 70378, .mn), (70400, 70401, .mn), (70402, 70403, .mc), (70459, 70460, .mn),
  (70462, 70463, .mc), (70464, 70464, .mn), (70465, 70468, .mc), (70471, 70472, .mc),
  (70475, 70477, .mc), (70487, 70487, .mc), (70498, 70499, .mc), (70502, 70508, .mn),
  (70512, 70516, .mn), (70584, 70586, .mc), (70587, 70592, .mn), (70594, 70594, .mc),
  (70597, 70597, .mc), (70599, 70602, .mc), (70604, 70605, .mc), (70606, 70606, .mn),
  (70607, 70607, .mc), (70608, 70608, .mn), (70610, 70610, .mn), (70625, 70626, .mn),
  (70709, 70711, .mc), (70712, 70719, .mn), (70720, 70721, .mc), (70722, 70724, .mn),
  (70725, 70725, .mc), (70726, 70726, .mn), (70750, 70750, .mn), (70832, 70834, .mc),
  (70835, 70840, .mn), (70841, 70841, .mc), (70842, 70842, .mn), (70843, 70846, .mc),
  (70847, 70848, .mn), (70849, 70849, .mc), (70850, 70851, .mn), (71087, 71089, .mc),
  (71090, 71093, .mn), (71096, 71099, .mc), (71100, 71101, .mn), (71102, 71102, .mc),
  (71103, 71104, .mn), (71132, 71133, .mn), (71216, 71218, .mc), (71219, 71226, .mn),
  (71227, 71228, .mc), (71229, 71229, .mn), (71230, 71230, .mc), (71231, 71232, .mn),
  (71339, 71339, .mn), (71340, 71340, .mc), (71341, 71341, .mn), (71342, 71343, .mc),
  (71344, 71349, .mn), (71350, 71350, .mc), (71351, 71351, .mn), (71453, 71453, .mn),
  (71454, 71454, .mc), (71455, 71455, .mn), (71456, 71457, .mc), (71458, 71461, .mn),
  (71462, 71462, .mc), (71463, 71467, .mn), (71724, 71726, .mc), (71727, 71735, .mn),
  (71736, 71736, .mc), (71737, 71738, .mn), (71984, 71989, .mc), (71991, 71992, .mc),
  (71995, 71996, .mn), (71997, 71997, .mc), (71998, 71998, .mn), (72000, 72000, .mc),
  (72002, 72002, .mc), (72003, 72003, .mn), (72145, 72147, .mc), (72148, 72151, .mn),
  (72154, 72155, .mn), (72156, 72159, .mc), (72160, 72160, .mn), (72164, 72164, .mc),
  (72193, 72202, .mn), (72243, 72248, .mn), (72249, 72249, .mc), (72251, 72254, .mn),
  (72263, 72263, .mn), (72273, 72278, .mn), (72279, 72280, .mc), (72281, 72283, .mn),
  (72330, 72342, .mn), (72343, 72343, .mc), (72344, 72345, .mn), (72751, 72751, .mc),
  (72752, 72758, .mn), (72760, 72765, .mn), (72766, 72766, .mc), (72767, 72767, .mn),
  (72850, 72871, .mn), (72873, 72873, .mc), (72874, 72880, .mn), (72881, 72881, .mc),
  (72882, 72883, .mn), (72884, 72884, .mc), (72885, 72886, .mn), (73009, 73014, .mn),
  (73018, 73018, .mn), (73020, 73021, .mn), (73023, 73029, .mn), (73031, 73031, .mn),
  (73098, 73102, .mc), (73104, 73105, .mn), (73107, 73108, .mc), (73109, 73109, .mn),
  (73110, 73110, .mc), (73111, 73111, .mn), (73459, 73460, .mn), (73461, 73462, .mc),
  (73472, 73473, .mn), (73475, 73475, .mc), (73524, 73525, .mc), (73526, 73530, .mn),
  (73534, 73535, .mc), (73536, 73536, .mn), (73537, 73537, .mc), (73538, 73538, .mn),
  (73562, 73562, .mn), (78912, 78912, .mn), (78919, 78933, .mn), (90398, 90409, .mn),
  (90410, 90412, .mc), (90413, 90415, .mn), (92912, 92916, .mn), (92976, 92982, .mn),
  (94031, 94031, .mn), (94033, 94087, .mc), (94095, 94098, .mn), (94180, 94180, .mn),
  (94192, 94193, .mc), (113821, 113822, .mn), (118528, 118573, .mn), (118576, 118598, .mn),
  (119141, 119142, .mc), (119143, 119145, .mn), (119149, 119154, .mc), (119163, 119170, .mn),
  (119173, 119179, .mn), (119210, 119213, .mn), (119362, 119364, .mn), (121344, 121398, .mn),
  (121403, 121452, .mn), (121461, 121461, .mn), (121476, 121476, .mn), (121499, 121503, .mn),
  (121505, 121519, .mn), (122880, 122886, .mn), (122888, 122904, .mn), (122907, 122913, .mn),
  (122915, 122916, .mn), (122918, 122922, .mn), (123023, 123023, .mn), (123184, 123190, .mn),
  (123566, 123566, .mn), (123628, 123631, .mn), (124140, 124143, .mn), (124398, 124399, .mn),
  (125136, 125142, .mn), (125252, 125258, .mn), (917760, 917999, .mn)]

def numberTable : Array (Nat × Nat × Category) := #[
  (48, 57, .nd), (178, 179, .no), (185, 185, .no), (188, 190, .no), (1632, 1641, .nd),
  (1776, 1785, .nd), (1984, 1993, .nd), (2406, 2415, .nd), (2534, 2543, .nd), (2548, 2553, .no),
  (2662, 2671, .nd), (2790, 2799, .nd), (2918, 2927, .nd), (2930, 2935, .no), (3046, 3055, .nd),
  (3056, 3058, .no), (3174, 3183, .nd), (3192, 3198, .no), (3302, 3311, .nd), (3416, 3422, .no),
  (3430, 3439, .nd), (3440, 3448, .no), (3558, 3567, .nd), (3664, 3673, .nd), (3792, 3801, .nd),
  (3872, 3881, .nd), (3882, 3891, .no), (4160, 4169, .nd), (4240, 4249, .nd), (4969, 4988, .no),
  (5870, 5872, .nl), (6112, 6121, .nd), (6128, 6137, .no), (6160, 6169, .nd), (6470, 6479, .nd),
  (6608, 6617, .nd), (6618, 6618, .no), (6784, 6793, .nd), (6800, 6809, .nd), (6992, 7001, .nd),
  (7088, 7097, .nd), (7232, 7241, .nd), (7248, 7257, .nd), (8304, 8304, .no), (8308, 8313, .no),
  (8320, 8329, .no), (8528, 8543, .no), (8544, 8578, .nl), (8581, 8584, .nl), (8585, 8585, .no),
  (9312, 9371, .no), (9450, 9471, .no), (10102, 10131, .no), (11517, 11517, .no),
  (12295, 12295, .nl), (12321, 12329, .nl), (12344, 12346, .nl), (12690, 12693, .no),
  (12832, 12841, .no), (12872, 12879, .no), (12881, 12895, .no), (12928, 12937, .no),
  (12977, 12991, .no), (42528, 42537, .nd), (42726, 42735, .nl), (43056, 43061, .no),
  (43216, 43225, .nd), (43264, 43273, .nd), (43472, 43481, .nd), (43504, 43513, .nd),
  (43600, 43609, .nd), (44016, 44025, .nd), (65296, 65305, .nd), (65799, 65843, .no),
  (65856, 65908, .nl), (65909, 65912, .no), (65930, 65931, .no), (66273, 66299, .no),
  (66336, 66339, .no), (66369, 66369, .nl), (66378, 66378, .nl), (66513, 66517, .nl),
  (66720, 66729, .nd), (67672, 67679, .no), (67705, 67711, .no), (67751, 67759, .no),
  (67835, 67839, .no), (67862, 67867, .no), (68028, 68029, .no), (68032, 68047, .no),
  (68050, 68095, .no), (68160, 68168, .no), (68221, 68222, .no), (68253, 68255, .no),
  (68331, 68335, .no), (68440, 68447, .no), (68472, 68479, .no), (68521, 68527, .no),
  (68858, 68863, .no), (68912, 68921, .nd), (68928, 68937, .nd), (69216, 69246, .no),
  (69405, 69414, .no), (69457, 69460, .no), (69573, 69579, .no), (69714, 69733, .no),
  (69734, 69743, .nd), (69872, 69881, .nd), (69942, 69951, .nd), (70096, 70105, .nd),
  (70113, 70132, .no), (70384, 70393, .nd), (70736, 70745, .nd), (70864, 70873, .nd),
  (71248, 71257, .nd), (71360, 71369, .nd), (71376, 71395, .nd), (71472, 71481, .nd),
  (71482, 71483, .no), (71904, 71913, .nd), (71914, 71922, .no), (72016, 72025, .nd),
  (72688, 72697, .nd), (72784, 72793, .nd), (72794, 72812, .no), (73040, 73049, .nd),
  (73120, 73129, .nd), (73552, 73561, .nd), (73664, 73684, .no), (74752, 74862, .nl),
  (90416, 90425, .nd), (92768, 92777, .nd), (92864, 92873, .nd), (93008, 93017, .nd),
  (93019, 93025, .no), (93552, 93561, .nd), (93824, 93846, .no), (118000, 118009, .nd),
  (119488, 119507, .no), (119520, 119539, .no), (119648, 119672, .no), (120782, 120831, .nd),
  (123200, 123209, .nd), (123632, 123641, .nd), (124144, 124153, .nd), (124401, 124410, .nd),
  (125127, 125135, .no), (125264, 125273, .nd), (126065, 126123, .no), (126125, 126127, .no),
  (126129, 126132, .no), (126209, 126253, .no), (126255, 126269, .no), (127232, 127244, .no),
  (130032, 130041, .nd)]

def punctuationTable : Array (Nat × Nat × Category) := #[
  (33, 35, .po), (37, 39, .po), (40, 40, .ps), (41, 41, .pe), (42, 42, .po), (44, 44, .po),
  (45, 45, .pd), (46, 47, .po), (58, 59, .po), (63, 64, .po), (91, 91, .ps), (92, 92, .po),
  (93, 93, .pe), (95, 95, .pc), (123, 123, .ps), (125, 125, .pe), (161, 161, .po), (167, 167, .po),
  (171, 171, .pi), (182, 183, .po), (187, 187, .pf), (191, 191, .po), (894, 894, .po),
  (903, 903, .po), (1370, 1375, .po), (1417, 1417, .po), (1418, 1418, .pd), (1470, 1470, .pd),
  (1472, 1472, .po), (1475, 1475, .po), (1478, 1478, .po), (1523, 1524, .po), (1545, 1546, .po),
  (1548, 1549, .po), (1563, 1563, .po), (1565, 1567, .po), (1642, 1645, .po), (1748, 1748, .po),
  (1792, 1805, .po), (2039, 2041, .po), (2096, 2110, .po), (2142, 2142, .po), (2404, 2405, .po),
  (2416, 2416, .po), (2557, 2557, .po), (2678, 2678, .po), (2800, 2800, .po), (3191, 3191, .po),
  (3204, 3204, .po), (3572, 3572, .po), (3663, 3663, .po), (3674, 3675, .po), (3844, 3858, .po),
  (3860, 3860, .po), (3898, 3898, .ps), (3899, 3899, .pe), (3900, 3900, .ps), (3901, 3901, .pe),
  (3973, 3973, .po), (4048, 4052, .po), (4057, 4058, .po), (4170, 4175, .po), (4347, 4347, .po),
  (4960, 4968, .po), (5120, 5120, .pd), (5742, 5742, .po), (5787, 5787, .ps), (5788, 5788, .pe),
  (5867, 5869, .po), (5941, 5942, .po), (6100, 6102, .po), (6104, 6106, .po), (6144, 6149, .po),
  (6150, 6150, .pd), (6151, 6154, .po), (6468, 6469, .po), (6686, 6687, .po), (6816, 6822, .po),
  (6824, 6829, .po), (6990, 6991, .po), (7002, 7008, .po), (7037, 7039, .po), (7164, 7167, .po),
  (7227, 7231, .po), (7294, 7295, .po), (7360, 7367, .po), (7379, 7379, .po), (8208, 8213, .pd),
  (8214, 8215, .po), (8216, 8216, .pi), (8217, 8217, .pf), (8218, 8218, .ps), (8219, 8220, .pi),
  (8221, 8221, .pf), (8222, 8222, .ps), (8223, 8223, .pi), (8224, 8231, .po), (8240, 8248, .po),
  (8249, 8249, .pi), (8250, 8250, .pf), (8251, 8254, .po), (8255, 8256, .pc), (8257, 8259, .po),
  (8261, 8261, .ps), (8262, 8262, .pe), (8263, 8273, .po), (8275, 8275, .po), (8276, 8276, .pc),
  (8277, 8286, .po), (8317, 8317, .ps), (8318, 8318, .pe), (8333, 8333, .ps), (8334, 8334, .pe),
  (8968, 8968, .ps), (8969, 8969, .pe), (8970, 8970, .ps), (8971, 8971, .pe), (9001, 9001, .ps),
  (9002, 9002, .pe), (10088, 10088, .ps), (10089, 10089, .pe), (10090, 10090, .ps),
  (10091, 10091, .pe), (10092, 10092, .ps), (10093, 10093, .pe), (10094, 10094, .ps),
  (10095, 10095, .pe), (10096, 10096, .ps), (10097, 10097, .pe), (10098, 10098, .ps),
  (10099, 10099, .pe), (10100, 10100, .ps), (10101, 10101, .pe), (10181, 10181, .ps),
  (10182, 10182, .pe), (10214, 10214, .ps), (10215, 10215, .pe), (10216, 10216, .ps),
  (10217, 10217, .pe), (10218, 10218, .ps), (10219, 10219, .pe), (10220, 10220, .ps),
  (10221, 10221, .pe), (10222, 10222, .ps), (10223, 10223, .pe), (10627, 10627, .ps),
  (10628, 10628, .pe), (10629, 10629, .ps), (10630, 10630, .pe), (10631, 10631, .ps),
  (10632, 10632, .pe), (10633, 10633, .ps), (10634, 10634, .pe), (10635, 10635, .ps),
  (10636, 10636, .pe), (10637, 10637, .ps), (10638, 10638, .pe), (10639, 10639, .ps),
  (10640, 10640, .pe), (10641, 10641, .ps), (10642, 10642, .pe), (10643, 10643, .ps),
  (10644, 10644, .pe), (10645, 10645, .ps), (10646, 10646, .pe), (10647, 10647, .ps),
  (10648, 10648, .pe), (10712, 10712, .ps), (10713, 10713, .pe), (10714, 10714, .ps),
  (10715, 10715, .pe), (10748, 10748, .ps), (10749, 10749, .pe), (11513, 11516, .po),
  (11518, 11519, .po), (11632, 11632, .po), (11776, 11777, .po), (11778, 11778, .pi),
  (11779, 11779, .pf), (11780, 11780, .pi), (11781, 11781, .pf), (11782, 11784, .po),
  (11785, 11785, .pi), (11786, 11786, .pf), (11787, 11787, .po), (11788, 11788, .pi),
  (11789, 11789, .pf), (11790, 11798, .po), (11799, 11799, .pd), (11800, 11801, .po),
  (11802, 11802, .pd), (11803, 11803, .po), (11804, 11804, .pi), (11805, 11805, .pf),
  (11806, 11807, .po), (11808, 11808, .pi), (11809, 11809, .pf), (11810, 11810, .ps),
  (11811, 11811, .pe), (11812, 11812, .ps), (11813, 11813, .pe), (11814, 11814, .ps),
  (11815, 11815, .pe), (11816, 11816, .ps), (11817, 11817, .pe), (11818, 11822, .po),
  (11824, 11833, .po), (11834, 11835, .pd), (11836, 11839, .po), (11840, 11840, .pd),
  (11841, 11841, .po), (11842, 11842, .ps), (11843, 11855, .po), (11858, 11860, .po),
  (11861, 11861, .ps), (11862, 11862, .pe), (11863, 11863, .ps), (11864, 11864, .pe),
  (11865, 11865, .ps), (11866, 11866, .pe), (11867, 11867, .ps), (11868, 11868, .pe),
  (11869, 11869, .pd), (12289, 12291, .po), (12296, 12296, .ps), (12297, 12297, .pe),
  (12298, 12298, .ps), (12299, 12299, .pe), (12300, 12300, .ps), (12301, 12301, .pe),
  (12302, 12302, .ps), (12303, 12303, .pe), (12304, 12304, .ps), (12305, 12305, .pe),
  (12308, 12308, .ps), (12309, 12309, .pe), (12310, 12310, .ps), (12311, 12311, .pe),
  (12312, 12312, .ps), (12313, 12313, .pe), (12314, 12314, .ps), (12315, 12315, .pe),
  (12316, 12316, .pd), (12317, 12317, .ps), (12318, 12319, .pe), (12336, 12336, .pd),
  (12349, 12349, .po), (12448, 12448, .pd), (12539, 12539, .po), (42238, 42239, .po),
  (42509, 42511, .po), (42611, 42611, .po), (42622, 42622, .po), (42738, 42743, .po),
  (43124, 43127, .po), (43214, 43215, .po), (43256, 43258, .po), (43260, 43260, .po),
  (43310, 43311, .po), (43359, 43359, .po), (43457, 43469, .po), (43486, 43487, .po),
  (43612, 43615, .po), (43742, 43743, .po), (43760, 43761, .po), (44011, 44011, .po),
  (64830, 64830, .pe), (64831, 64831, .ps), (65040, 65046, .po), (65047, 65047, .ps),
  (65048, 65048, .pe), (65049, 65049, .po), (65072, 65072, .po), (65073, 65074, .pd),
  (65075, 65076, .pc), (65077, 65077, .ps), (65078, 65078, .pe), (65079, 65079, .ps),
  (65080, 65080, .pe), (65081, 65081, .ps), (65082, 65082, .pe), (65083, 65083, .ps),
  (65084, 65084, .pe), (65085, 65085, .ps), (65086, 65086, .pe), (65087, 65087, .ps),
  (65088, 65088, .pe), (65089, 65089, .ps), (65090, 65090, .pe), (65091, 65091, .ps),
  (65092, 65092, .pe), (65093, 65094, .po), (65095, 65095, .ps), (65096, 65096, .pe),
  (65097, 65100, .po), (65101, 65103, .pc), (65104, 65106, .po), (65108, 65111, .po),
  (65112, 65112, .pd), (65113, 65113, .ps), (65114, 65114, .pe), (65115, 65115, .ps),
  (65116, 65116, .pe), (65117, 65117, .ps), (65118, 65118, .pe), (65119, 65121, .po),
  (65123, 65123, .pd), (65128, 65128, .po), (65130, 65131, .po), (65281, 65283, .po),
  (65285, 65287, .po), (65288, 65288, .ps), (65289, 65289, .pe), (65290, 65290, .po),
  (65292, 65292, .po), (65293, 65293, .pd), (65294, 65295, .po), (65306, 65307, .po),
  (65311, 65312, .po), (65339, 65339, .ps), (65340, 65340, .po), (65341, 65341, .pe),
  (65343, 65343, .pc), (65371, 65371, .ps), (65373, 65373, .pe), (65375, 65375, .ps),
  (65376, 65376, .pe), (65377, 65377, .po), (65378, 65378, .ps), (65379, 65379, .pe),
  (65380, 65381, .po), (65792, 65794, .po), (66463, 66463, .po), (66512, 66512, .po),
  (66927, 66927, .po), (67671, 67671, .po), (67871, 67871, .po), (67903, 67903, .po),
  (68176, 68184, .po), (68223, 68223, .po), (68336, 68342, .po), (68409, 68415, .po),
  (68505, 68508, .po), (68974, 68974, .pd), (69293, 69293, .pd), (69461, 69465, .po),
  (69510, 69513, .po), (69703, 69709, .po), (69819, 69820, .po), (69822, 69825, .po),
  (69952, 69955, .po), (70004, 70005, .po), (70085, 70088, .po), (70093, 70093, .po),
  (70107, 70107, .po), (70109, 70111, .po), (70200, 70205, .po), (70313, 70313, .po),
  (70612, 70613, .po), (70615, 70616, .po), (70731, 70735, .po), (70746, 70747, .po),
  (70749, 70749, .po), (70854, 70854, .po), (71105, 71127, .po), (71233, 71235, .po),
  (71264, 71276, .po), (71353, 71353, .po), (71484, 71486, .po), (71739, 71739, .po),
  (72004, 72006, .po), (72162, 72162, .po), (72255, 72262, .po), (72346, 72348, .po),
  (72350, 72354, .po), (72448, 72457, .po), (72673, 72673, .po), (72769, 72773, .po),
  (72816, 72817, .po), (73463, 73464, .po), (73539, 73551, .po), (73727, 73727, .po),
  (74864, 74868, .po), (77809, 77810, .po), (92782, 92783, .po), (92917, 92917, .po),
  (92983, 92987, .po), (92996, 92996, .po), (93549, 93551, .po), (93847, 93850, .po),
  (94178, 94178, .po), (113823, 113823, .po), (121479, 121483, .po), (124415, 124415, .po),
  (125278, 125279, .po)]

def symbolTable : Array (Nat × Nat × Category) := #[
  (36, 36, .sc), (43, 43, .sm), (60, 62, .sm), (94, 94, .sk), (96, 96, .sk), (124, 124, .sm),
  (126, 126, .sm), (162, 165, .sc), (166, 166, .so), (168, 168, .sk), (169, 169, .so),
  (172, 172, .sm), (174, 174, .so), (175, 175, .sk), (176, 176, .so), (177, 177, .sm),
  (180, 180, .sk), (184, 184, .sk), (215, 215, .sm), (247, 247, .sm), (706, 709, .sk),
  (722, 735, .sk), (741, 747, .sk), (749, 749, .sk), (751, 767, .sk), (885, 885, .sk),
  (900, 901, .sk), (1014, 1014, .sm), (1154, 1154, .so), (1421, 1422, .so), (1423, 1423, .sc),
  (1542, 1544, .sm), (1547, 1547, .sc), (1550, 1551, .so), (1758, 1758, .so), (1769, 1769, .so),
  (1789, 1790, .so), (2038, 2038, .so), (2046, 2047, .sc), (2184, 2184, .sk), (2546, 2547, .sc),
  (2554, 2554, .so), (2555, 2555, .sc), (2801, 2801, .sc), (2928, 2928, .so), (3059, 3064, .so),
  (3065, 3065, .sc), (3066, 3066, .so), (3199, 3199, .so), (3407, 3407, .so), (3449, 3449, .so),
  (3647, 3647, .sc), (3841, 3843, .so), (3859, 3859, .so), (3861, 3863, .so), (3866, 3871, .so),
  (3892, 3892, .so), (3894, 3894, .so), (3896, 3896, .so), (4030, 4037, .so), (4039, 4044, .so),
  (4046, 4047, .so), (4053, 4056, .so), (4254, 4255, .so), (5008, 5017, .so), (5741, 5741, .so),
  (6107, 6107, .sc), (6464, 6464, .so), (6622, 6655, .so), (7009, 7018, .so), (7028, 7036, .so),
  (8125, 8125, .sk), (8127, 8129, .sk), (8141, 8143, .sk), (8157, 8159, .sk), (8173, 8175, .sk),
  (8189, 8190, .sk), (8260, 8260, .sm), (8274, 8274, .sm), (8314, 8316, .sm), (8330, 8332, .sm),
  (8352, 8384, .sc), (8448, 8449, .so), (8451, 8454, .so), (8456, 8457, .so), (8468, 8468, .so),
  (8470, 8471, .so), (8472, 8472, .sm), (8478, 8483, .so), (8485, 8485, .so), (8487, 8487, .so),
  (8489, 8489, .so), (8494, 8494, .so), (8506, 8507, .so), (8512, 8516, .sm), (8522, 8522, .so),
  (8523, 8523, .sm), (8524, 8525, .so), (8527, 8527, .so), (8586, 8587, .so), (8592, 8596, .sm),
  (8597, 8601, .so), (8602, 8603, .sm), (8604, 8607, .so), (8608, 8608, .sm), (8609, 8610, .so),
  (8611, 8611, .sm), (8612, 8613, .so), (8614, 8614, .sm), (8615, 8621, .so), (8622, 8622, .sm),
  (8623, 8653, .so), (8654, 8655, .sm), (8656, 8657, .so), (8658, 8658, .sm), (8659, 8659, .so),
  (8660, 8660, .sm), (8661, 8691, .so), (8692, 8959, .sm), (8960, 8967, .so), (8972, 8991, .so),
  (8992, 8993, .sm), (8994, 9000, .so), (9003, 9083, .so), (9084, 9084, .sm), (9085, 9114, .so),
  (9115, 9139, .sm), (9140, 9179, .so), (9180, 9185, .sm), (9186, 9257, .so), (9280, 9290, .so),
  (9372, 9449, .so), (9472, 9654, .so), (9655, 9655, .sm), (9656, 9664, .so), (9665, 9665, .sm),
  (9666, 9719, .so), (9720, 9727, .sm), (9728, 9838, .so), (9839, 9839, .sm), (9840, 10087, .so),
  (10132, 10175, .so), (10176, 10180, .sm), (10183, 10213, .sm), (10224, 10239, .sm),
  (10240, 10495, .so), (10496, 10626, .sm), (10649, 10711, .sm), (10716, 10747, .sm),
  (10750, 11007, .sm), (11008, 11055, .so), (11056, 11076, .sm), (11077, 11078, .so),
  (11079, 11084, .sm), (11085, 11123, .so), (11126, 11157, .so), (11159, 11263, .so),
  (11493, 11498, .so), (11856, 11857, .so), (11904, 11929, .so), (11931, 12019, .so),
  (12032, 12245, .so), (12272, 12287, .so), (12292, 12292, .so), (12306, 12307, .so),
  (12320, 12320, .so), (12342, 12343, .so), (12350, 12351, .so), (12443, 12444, .sk),
  (12688, 12689, .so), (12694, 12703, .so), (12736, 12773, .so), (12783, 12783, .so),
  (12800, 12830, .so), (12842, 12871, .so), (12880, 12880, .so), (12896, 12927, .so),
  (12938, 12976, .so), (12992, 13311, .so), (19904, 19967, .so), (42128, 42182, .so),
  (42752, 42774, .sk), (42784, 42785, .sk), (42889, 42890, .sk), (43048, 43051, .so),
  (43062, 43063, .so), (43064, 43064, .sc), (43065, 43065, .so), (43639, 43641, .so),
  (43867, 43867, .sk), (43882, 43883, .sk), (64297, 64297, .sm), (64434, 64450, .sk),
  (64832, 64847, .so), (64975, 64975, .so), (65020, 65020, .sc), (65021, 65023, .so),
  (65122, 65122, .sm), (65124, 65126, .sm), (65129, 65129, .sc), (65284, 65284, .sc),
  (65291, 65291, .sm), (65308, 65310, .sm), (65342, 65342, .sk), (65344, 65344, .sk),
  (65372, 65372, .sm), (65374, 65374, .sm), (65504, 65505, .sc), (65506, 65506, .sm),
  (65507, 65507, .sk), (65508, 65508, .so), (65509, 65510, .sc), (65512, 65512, .so),
  (65513, 65516, .sm), (65517, 65518, .so), (65532, 65533, .so), (65847, 65855, .so),
  (65913, 65929, .so), (65932, 65934, .so), (65936, 65948, .so), (65952, 65952, .so),
  (66000, 66044, .so), (67703, 67704, .so), (68296, 68296, .so), (69006, 69007, .sm),
  (71487, 71487, .so), (73685, 73692, .so), (73693, 73696, .sc), (73697, 73713, .so),
  (92988, 92991, .so), (92997, 92997, .so), (113820, 113820, .so), (117760, 117999, .so),
  (118016, 118451, .so), (118608, 118723, .so), (118784, 119029, .so), (119040, 119078, .so),
  (119081, 119140, .so), (119146, 119148, .so), (119171, 119172, .so), (119180, 119209, .so),
  (119214, 119274, .so), (119296, 119361, .so), (119365, 119365, .so), (119552, 119638, .so),
  (120513, 120513, .sm), (120539, 120539, .sm), (120571, 120571, .sm), (120597, 120597, .sm),
  (120629, 120629, .sm), (120655, 120655, .sm), (120687, 120687, .sm), (120713, 120713, .sm),
  (120745, 120745, .sm), (120771, 120771, .sm), (120832, 121343, .so), (121399, 121402, .so),
  (121453, 121460, .so), (121462, 121475, .so), (121477, 121478, .so), (123215, 123215, .so),
  (123647, 123647, .sc), (126124, 126124, .so), (126128, 126128, .sc), (126254, 126254, .so),
  (126704, 126705, .sm), (126976, 127019, .so), (127024, 127123, .so), (127136, 127150, .so),
  (127153, 127167, .so), (127169, 127183, .so), (127185, 127221, .so), (127245, 127405, .so),
  (127462, 127490, .so), (127504, 127547, .so), (127552, 127560, .so), (127568, 127569, .so),
  (127584, 127589, .so), (127744, 127994, .so), (127995, 127999, .sk), (128000, 128727, .so),
  (128732, 128748, .so), (128752, 128764, .so), (128768, 128886, .so), (128891, 128985, .so),
  (128992, 129003, .so), (129008, 129008, .so), (129024, 129035, .so), (129040, 129095, .so),
  (129104, 129113, .so), (129120, 129159, .so), (129168, 129197, .so), (129200, 129211, .so),
  (129216, 129217, .so), (129280, 129619, .so), (129632, 129645, .so), (129648, 129660, .so),
  (129664, 129673, .so), (129679, 129734, .so), (129742, 129756, .so), (129759, 129769, .so),
  (129776, 129784, .so), (129792, 129938, .so), (129940, 130031, .so)]

/-- Separators, controls, formats and code points for private use. -/
def otherTable : Array (Nat × Nat × Category) := #[
  (0, 31, .cc), (32, 32, .zs), (127, 159, .cc), (160, 160, .zs), (173, 173, .cf), (1536, 1541, .cf),
  (1564, 1564, .cf), (1757, 1757, .cf), (1807, 1807, .cf), (2192, 2193, .cf), (2274, 2274, .cf),
  (5760, 5760, .zs), (6158, 6158, .cf), (8192, 8202, .zs), (8203, 8207, .cf), (8232, 8232, .zl),
  (8233, 8233, .zp), (8234, 8238, .cf), (8239, 8239, .zs), (8287, 8287, .zs), (8288, 8292, .cf),
  (8294, 8303, .cf), (12288, 12288, .zs), (57344, 63743, .co), (65279, 65279, .cf),
  (65529, 65531, .cf), (69821, 69821, .cf), (69837, 69837, .cf), (78896, 78911, .cf),
  (113824, 113827, .cf), (119155, 119162, .cf), (917505, 917505, .cf), (917536, 917631, .cf),
  (983040, 1048573, .co), (1048576, 1114109, .co)]

def categoryIn? (table : Array (Nat × Nat × Category)) (code : Nat) : Option Category :=
  match entryFor? (·.1) table code with
  | some (first, last, category) => if first ≤ code && code ≤ last then some category else none
  | none => none

/-- The category of a character; one in no table is unassigned. -/
def category (c : Char) : Category :=
  let code := c.toNat
  let tables := [letterTable, markTable, numberTable, punctuationTable, symbolTable, otherTable]
  match tables.findSome? (categoryIn? · code) with
  | some category => category
  | none =>
    match entryFor? (·.1) alternatingTable code with
    | some (first, last) =>
      if first ≤ code && code ≤ last then if (code - first) % 2 == 0 then .lu else .ll else .cn
    | none => .cn

namespace Category

def isLetter : Category → Bool
  | lu | ll | lt | lm | lo => true
  | _ => false

def isMark : Category → Bool
  | mn | mc | me => true
  | _ => false

def isPunctuation : Category → Bool
  | pc | pd | ps | pe | pi | pf | po => true
  | _ => false

def isSymbol : Category → Bool
  | sm | sc | sk | so => true
  | _ => false

def isSeparator : Category → Bool
  | zs | zl | zp => true
  | _ => false

/-- The names of categories and of groups of them, in lowercase and without spaces. -/
def named : List (String × List Category) := [
  ("l", [lu, ll, lt, lm, lo]), ("letter", [lu, ll, lt, lm, lo]),
  ("lc", [lu, ll, lt]), ("casedletter", [lu, ll, lt]),
  ("lu", [lu]), ("uppercaseletter", [lu]), ("ll", [ll]), ("lowercaseletter", [ll]),
  ("lt", [lt]), ("titlecaseletter", [lt]), ("lm", [lm]), ("modifierletter", [lm]),
  ("lo", [lo]), ("otherletter", [lo]),
  ("m", [mn, mc, me]), ("mark", [mn, mc, me]), ("combiningmark", [mn, mc, me]),
  ("mn", [mn]), ("nonspacingmark", [mn]), ("mc", [mc]), ("spacingmark", [mc]),
  ("me", [me]), ("enclosingmark", [me]),
  ("n", [nd, nl, no]), ("number", [nd, nl, no]), ("nd", [nd]), ("decimalnumber", [nd]),
  ("nl", [nl]), ("letternumber", [nl]), ("no", [no]), ("othernumber", [no]),
  ("p", [pc, pd, ps, pe, pi, pf, po]), ("punct", [pc, pd, ps, pe, pi, pf, po]),
  ("punctuation", [pc, pd, ps, pe, pi, pf, po]),
  ("pc", [pc]), ("connectorpunctuation", [pc]), ("pd", [pd]), ("dashpunctuation", [pd]),
  ("ps", [ps]), ("openpunctuation", [ps]), ("pe", [pe]), ("closepunctuation", [pe]),
  ("pi", [pi]), ("initialpunctuation", [pi]), ("pf", [pf]), ("finalpunctuation", [pf]),
  ("po", [po]), ("otherpunctuation", [po]),
  ("s", [sm, sc, sk, so]), ("symbol", [sm, sc, sk, so]), ("sm", [sm]), ("mathsymbol", [sm]),
  ("sc", [sc]), ("currencysymbol", [sc]), ("sk", [sk]), ("modifiersymbol", [sk]),
  ("so", [so]), ("othersymbol", [so]),
  ("z", [zs, zl, zp]), ("separator", [zs, zl, zp]), ("zs", [zs]), ("spaceseparator", [zs]),
  ("zl", [zl]), ("lineseparator", [zl]), ("zp", [zp]), ("paragraphseparator", [zp]),
  ("c", [cc, cf, cs, co, cn]), ("other", [cc, cf, cs, co, cn]), ("cc", [cc]), ("control", [cc]),
  ("cf", [cf]), ("format", [cf]), ("cs", [cs]), ("surrogate", [cs]),
  ("co", [co]), ("privateuse", [co]), ("cn", [cn]), ("unassigned", [cn])]

end Category

end Highlight.Unicode
