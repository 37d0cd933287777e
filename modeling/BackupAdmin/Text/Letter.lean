/-! Letters and numerals beyond ASCII, by the code points at which the class begins and ends. -/
namespace BackupAdmin.Text

/-- The number lies in a class whose `bounds` begin and end it in turn. -/
def inClass (bounds : List Nat) (n : Nat) : Bool := (bounds.takeWhile (· ≤ n)).length % 2 = 1

set_option maxRecDepth 8000 in
/-- The bounds of the letters and numerals from `U+0080` on. -/
def letterBounds : List Nat :=
  [170, 171, 178, 180, 181, 182, 185, 187, 188, 191, 192, 215, 216, 247, 248, 706, 710, 722, 736,
    741, 748, 749, 750, 751, 880, 885, 886, 894, 895, 896, 902, 903, 904, 1014, 1015, 1154, 1162,
    1370, 1376, 1417, 1488, 1523, 1568, 1611, 1632, 1642, 1646, 1648, 1649, 1748, 1749, 1750,
    1765, 1767, 1774, 1789, 1791, 1792, 1808, 1809, 1810, 1840, 1869, 1958, 1969, 2027, 2036,
    2038, 2042, 2043, 2048, 2070, 2074, 2075, 2084, 2085, 2088, 2089, 2112, 2137, 2144, 2184,
    2185, 2191, 2208, 2250, 2307, 2362, 2363, 2364, 2365, 2369, 2377, 2381, 2382, 2385, 2392,
    2402, 2406, 2416, 2417, 2433, 2434, 2490, 2493, 2497, 2503, 2509, 2510, 2530, 2534, 2546,
    2548, 2554, 2556, 2557, 2563, 2618, 2622, 2625, 2649, 2672, 2674, 2677, 2691, 2746, 2749,
    2753, 2761, 2765, 2768, 2786, 2790, 2800, 2809, 2810, 2818, 2874, 2877, 2879, 2880, 2881,
    2887, 2893, 2903, 2914, 2918, 2928, 2929, 2936, 2947, 3008, 3009, 3021, 3024, 3059, 3073,
    3076, 3077, 3130, 3133, 3134, 3137, 3141, 3160, 3170, 3174, 3184, 3192, 3199, 3200, 3201,
    3202, 3204, 3205, 3258, 3261, 3263, 3264, 3269, 3271, 3276, 3285, 3298, 3302, 3315, 3330,
    3387, 3389, 3393, 3398, 3405, 3406, 3407, 3412, 3426, 3430, 3449, 3450, 3456, 3458, 3527,
    3535, 3538, 3544, 3572, 3585, 3633, 3634, 3636, 3648, 3655, 3664, 3674, 3713, 3761, 3762,
    3764, 3773, 3783, 3792, 3841, 3872, 3892, 3902, 3949, 3967, 3968, 3976, 3981, 4096, 4141,
    4145, 4146, 4152, 4153, 4155, 4157, 4159, 4170, 4176, 4184, 4186, 4190, 4193, 4209, 4213,
    4226, 4227, 4229, 4231, 4237, 4238, 4253, 4256, 4347, 4348, 4955, 4969, 5008, 5024, 5118,
    5121, 5741, 5743, 5760, 5761, 5787, 5792, 5867, 5870, 5906, 5909, 5938, 5940, 5941, 5952,
    5970, 5984, 6001, 6016, 6068, 6070, 6071, 6078, 6086, 6087, 6089, 6103, 6104, 6108, 6109,
    6112, 6138, 6160, 6277, 6279, 6313, 6314, 6431, 6435, 6439, 6441, 6450, 6451, 6457, 6470,
    6619, 6656, 6679, 6681, 6683, 6688, 6742, 6743, 6744, 6753, 6754, 6755, 6757, 6765, 6771,
    6784, 6810, 6823, 6824, 6916, 6964, 6965, 6966, 6971, 6972, 6973, 6978, 6979, 7002, 7042,
    7074, 7078, 7080, 7082, 7083, 7086, 7142, 7143, 7144, 7146, 7149, 7150, 7151, 7154, 7156,
    7168, 7212, 7220, 7222, 7232, 7294, 7296, 7360, 7393, 7394, 7401, 7405, 7406, 7412, 7413,
    7416, 7418, 7616, 7680, 8125, 8126, 8127, 8130, 8141, 8144, 8156, 8160, 8173, 8178, 8189,
    8304, 8314, 8319, 8330, 8336, 8349, 8450, 8451, 8455, 8456, 8458, 8468, 8469, 8470, 8473,
    8478, 8484, 8485, 8486, 8487, 8488, 8489, 8490, 8494, 8495, 8506, 8508, 8512, 8517, 8522,
    8526, 8527, 8528, 8586, 9312, 9372, 9450, 9472, 10102, 10132, 11264, 11493, 11499, 11503,
    11506, 11508, 11517, 11518, 11520, 11632, 11648, 11743, 11823, 11824, 12293, 12296, 12321,
    12330, 12334, 12336, 12337, 12342, 12344, 12349, 12353, 12439, 12445, 12448, 12449, 12539,
    12540, 12687, 12690, 12694, 12704, 12736, 12784, 12800, 12832, 12842, 12872, 12880, 12881,
    12896, 12928, 12938, 12977, 12992, 13312, 19904, 19968, 42125, 42192, 42238, 42240, 42509,
    42512, 42607, 42623, 42654, 42656, 42736, 42775, 42784, 42786, 42889, 42891, 43010, 43011,
    43014, 43015, 43019, 43020, 43045, 43047, 43048, 43056, 43062, 43072, 43124, 43136, 43204,
    43216, 43226, 43250, 43256, 43259, 43260, 43261, 43263, 43264, 43302, 43312, 43335, 43346,
    43348, 43360, 43389, 43395, 43443, 43444, 43446, 43450, 43452, 43454, 43457, 43471, 43482,
    43488, 43493, 43494, 43561, 43567, 43569, 43571, 43573, 43584, 43587, 43588, 43596, 43597,
    43610, 43616, 43639, 43642, 43644, 43645, 43696, 43697, 43698, 43701, 43703, 43705, 43710,
    43712, 43713, 43714, 43742, 43744, 43756, 43758, 43760, 43762, 43766, 43777, 43867, 43868,
    43882, 43888, 44005, 44006, 44008, 44009, 44011, 44012, 44013, 44016, 64286, 64287, 64297,
    64298, 64434, 64467, 64830, 64848, 64968, 65008, 65020, 65136, 65277, 65296, 65306, 65313,
    65339, 65345, 65371, 65382, 65501, 65536, 65787, 65799, 65844, 65856, 65913, 65930, 65932,
    66176, 66257, 66273, 66422, 66432, 66462, 66464, 66512, 66513, 66916, 66928, 67670, 67672,
    67703, 67705, 67868, 67872, 67898, 67968, 68097, 68112, 68150, 68160, 68169, 68192, 68223,
    68224, 68296, 68297, 68325, 68331, 68336, 68352, 68406, 68416, 68498, 68521, 68900, 68912,
    69290, 69296, 69446, 69457, 69461, 69488, 69506, 69552, 69633, 69634, 69688, 69714, 69744,
    69745, 69747, 69749, 69750, 69762, 69811, 69815, 69817, 69840, 69882, 69891, 69927, 69932,
    69933, 69942, 69952, 69956, 70003, 70006, 70007, 70018, 70070, 70079, 70085, 70094, 70095,
    70096, 70107, 70108, 70109, 70113, 70191, 70194, 70196, 70197, 70198, 70272, 70313, 70320,
    70367, 70368, 70371, 70384, 70394, 70402, 70458, 70461, 70464, 70465, 70500, 70656, 70712,
    70720, 70722, 70725, 70726, 70727, 70731, 70736, 70746, 70751, 70835, 70841, 70842, 70843,
    70847, 70849, 70850, 70852, 70854, 70855, 71090, 71096, 71100, 71102, 71103, 71128, 71132,
    71168, 71219, 71227, 71229, 71230, 71231, 71236, 71258, 71296, 71339, 71340, 71341, 71342,
    71344, 71350, 71351, 71352, 71353, 71360, 71451, 71456, 71458, 71462, 71463, 71472, 71484,
    71488, 71727, 71736, 71737, 71840, 71993, 71997, 71998, 71999, 72003, 72016, 72148, 72156,
    72160, 72161, 72162, 72163, 72193, 72203, 72243, 72249, 72251, 72272, 72273, 72279, 72281,
    72284, 72330, 72343, 72344, 72349, 72350, 72368, 72752, 72766, 72767, 72768, 72769, 72784,
    72813, 72818, 72848, 72873, 72874, 72881, 72882, 72884, 72885, 72960, 73009, 73030, 73031,
    73040, 73103, 73107, 73109, 73110, 73111, 73112, 73459, 73461, 73463, 73648, 73685, 73728,
    74863, 74880, 77809, 77824, 78895, 82944, 92778, 92784, 92910, 92928, 92976, 92992, 92996,
    93008, 93847, 93952, 94027, 94032, 94088, 94099, 94178, 94179, 94180, 94192, 113818, 119141,
    119143, 119149, 119155, 119520, 119540, 119648, 120513, 120514, 120539, 120540, 120571,
    120572, 120597, 120598, 120629, 120630, 120655, 120656, 120687, 120688, 120713, 120714,
    120745, 120746, 120771, 120772, 120832, 122624, 122655, 123136, 123181, 123191, 123215,
    123536, 123566, 123584, 123628, 123632, 123642, 124896, 125136, 125184, 125252, 125259,
    125274, 126065, 126124, 126125, 126128, 126129, 126254, 126255, 126652, 127232, 127245,
    130032, 201547]

/-- A letter or numeral of any script. -/
def isLetterOrNumeral (c : Char) : Bool :=
  c.isAlphanum || (0x80 ≤ c.toNat && inClass letterBounds c.toNat)

example : isLetterOrNumeral 'é' = true ∧ isLetterOrNumeral '—' = false := by decide +kernel

end BackupAdmin.Text
