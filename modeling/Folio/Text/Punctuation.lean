import Folio.Text.CharRanges

set_option autoImplicit false

/-! # Punctuation and symbols

The two general categories of the Unicode standard that decide where emphasis may start and end,
and where a bare link stops. -/

namespace Folio.Text

/-- Punctuation beyond ASCII. -/
def punctuationBeyondAscii : CharRanges := .ofText
  (String.join ["a1,a7,ab,b6-b7,bb,bf,37e,387,55a-55f,589-58a,5be,5c0,5c3,5c6,5f3-5f4,609-60a,60c-60d,61b,",
    "61d-61f,66a-66d,6d4,700-70d,7f7-7f9,830-83e,85e,964-965,970,9fd,a76,af0,c77,c84,df4,e4f,e5a-e5b,",
    "f04-f12,f14,f3a-f3d,f85,fd0-fd4,fd9-fda,104a-104f,10fb,1360-1368,1400,166e,169b-169c,16eb-16ed,",
    "1735-1736,17d4-17d6,17d8-17da,1800-180a,1944-1945,1a1e-1a1f,1aa0-1aa6,1aa8-1aad,1b5a-1b60,",
    "1b7d-1b7e,1bfc-1bff,1c3b-1c3f,1c7e-1c7f,1cc0-1cc7,1cd3,2010-2027,2030-2043,2045-2051,2053-205e,",
    "207d-207e,208d-208e,2308-230b,2329-232a,2768-2775,27c5-27c6,27e6-27ef,2983-2998,29d8-29db,",
    "29fc-29fd,2cf9-2cfc,2cfe-2cff,2d70,2e00-2e2e,2e30-2e4f,2e52-2e5d,3001-3003,3008-3011,3014-301f,",
    "3030,303d,30a0,30fb,a4fe-a4ff,a60d-a60f,a673,a67e,a6f2-a6f7,a874-a877,a8ce-a8cf,a8f8-a8fa,a8fc,",
    "a92e-a92f,a95f,a9c1-a9cd,a9de-a9df,aa5c-aa5f,aade-aadf,aaf0-aaf1,abeb,fd3e-fd3f,fe10-fe19,",
    "fe30-fe52,fe54-fe61,fe63,fe68,fe6a-fe6b,ff01-ff03,ff05-ff0a,ff0c-ff0f,ff1a-ff1b,ff1f-ff20,",
    "ff3b-ff3d,ff3f,ff5b,ff5d,ff5f-ff65,10100-10102,1039f,103d0,1056f,10857,1091f,1093f,10a50-10a58,",
    "10a7f,10af0-10af6,10b39-10b3f,10b99-10b9c,10ead,10f55-10f59,10f86-10f89,11047-1104d,110bb-110bc,",
    "110be-110c1,11140-11143,11174-11175,111c5-111c8,111cd,111db,111dd-111df,11238-1123d,112a9,",
    "1144b-1144f,1145a-1145b,1145d,114c6,115c1-115d7,11641-11643,11660-1166c,116b9,1173c-1173e,1183b,",
    "11944-11946,119e2,11a3f-11a46,11a9a-11a9c,11a9e-11aa2,11c41-11c45,11c70-11c71,11ef7-11ef8,11fff,",
    "12470-12474,12ff1-12ff2,16a6e-16a6f,16af5,16b37-16b3b,16b44,16e97-16e9a,16fe2,1bc9f,1da87-1da8b,",
    "1e95e-1e95f"])

/-- Symbols beyond ASCII: mathematical, of currency, modifiers and others. -/
def symbolsBeyondAscii : CharRanges := .ofText
  (String.join ["a2-a6,a8-a9,ac,ae-b1,b4,b8,d7,f7,2c2-2c5,2d2-2df,2e5-2eb,2ed,2ef-2ff,375,384-385,3f6,482,",
    "58d-58f,606-608,60b,60e-60f,6de,6e9,6fd-6fe,7f6,7fe-7ff,888,9f2-9f3,9fa-9fb,af1,b70,bf3-bfa,c7f,",
    "d4f,d79,e3f,f01-f03,f13,f15-f17,f1a-f1f,f34,f36,f38,fbe-fc5,fc7-fcc,fce-fcf,fd5-fd8,109e-109f,",
    "1390-1399,166d,17db,1940,19de-19ff,1b61-1b6a,1b74-1b7c,1fbd,1fbf-1fc1,1fcd-1fcf,1fdd-1fdf,",
    "1fed-1fef,1ffd-1ffe,2044,2052,207a-207c,208a-208c,20a0-20c0,2100-2101,2103-2106,2108-2109,2114,",
    "2116-2118,211e-2123,2125,2127,2129,212e,213a-213b,2140-2144,214a-214d,214f,218a-218b,2190-2307,",
    "230c-2328,232b-2426,2440-244a,249c-24e9,2500-2767,2794-27c4,27c7-27e5,27f0-2982,2999-29d7,",
    "29dc-29fb,29fe-2b73,2b76-2b95,2b97-2bff,2ce5-2cea,2e50-2e51,2e80-2e99,2e9b-2ef3,2f00-2fd5,",
    "2ff0-2ffb,3004,3012-3013,3020,3036-3037,303e-303f,309b-309c,3190-3191,3196-319f,31c0-31e3,",
    "3200-321e,322a-3247,3250,3260-327f,328a-32b0,32c0-33ff,4dc0-4dff,a490-a4c6,a700-a716,a720-a721,",
    "a789-a78a,a828-a82b,a836-a839,aa77-aa79,ab5b,ab6a-ab6b,fb29,fbb2-fbc2,fd40-fd4f,fdcf,fdfc-fdff,",
    "fe62,fe64-fe66,fe69,ff04,ff0b,ff1c-ff1e,ff3e,ff40,ff5c,ff5e,ffe0-ffe6,ffe8-ffee,fffc-fffd,",
    "10137-1013f,10179-10189,1018c-1018e,10190-1019c,101a0,101d0-101fc,10877-10878,10ac8,1173f,",
    "11fd5-11ff1,16b3c-16b3f,16b45,1bc9c,1cf50-1cfc3,1d000-1d0f5,1d100-1d126,1d129-1d164,1d16a-1d16c,",
    "1d183-1d184,1d18c-1d1a9,1d1ae-1d1ea,1d200-1d241,1d245,1d300-1d356,1d6c1,1d6db,1d6fb,1d715,1d735,",
    "1d74f,1d76f,1d789,1d7a9,1d7c3,1d800-1d9ff,1da37-1da3a,1da6d-1da74,1da76-1da83,1da85-1da86,1e14f,",
    "1e2ff,1ecac,1ecb0,1ed2e,1eef0-1eef1,1f000-1f02b,1f030-1f093,1f0a0-1f0ae,1f0b1-1f0bf,1f0c1-1f0cf,",
    "1f0d1-1f0f5,1f10d-1f1ad,1f1e6-1f202,1f210-1f23b,1f240-1f248,1f250-1f251,1f260-1f265,1f300-1f6d7,",
    "1f6dd-1f6ec,1f6f0-1f6fc,1f700-1f773,1f780-1f7d8,1f7e0-1f7eb,1f7f0,1f800-1f80b,1f810-1f847,",
    "1f850-1f859,1f860-1f887,1f890-1f8ad,1f8b0-1f8b1,1f900-1fa53,1fa60-1fa6d,1fa70-1fa74,1fa78-1fa7c,",
    "1fa80-1fa86,1fa90-1faac,1fab0-1faba,1fac0-1fac5,1fad0-1fad9,1fae0-1fae7,1faf0-1faf6,1fb00-1fb92,",
    "1fb94-1fbca"])

/-- The printing ASCII characters that are neither letters nor digits. -/
def isAsciiPunctuation (c : Char) : Bool :=
  ('!' ≤ c && c ≤ '/') || (':' ≤ c && c ≤ '@') || ('[' ≤ c && c ≤ '\x60') || ('\x7b' ≤ c && c ≤ '~')

/-- The ASCII characters that the standard counts among the symbols. -/
def isAsciiSymbol (c : Char) : Bool :=
  c == '$' || c == '+' || c == '<' || c == '=' || c == '>' || c == '^' || c == '\x60' ||
  c == '|' || c == '~'

/-- Whether the character is punctuation in the sense of the standard. -/
def isPunctuation (c : Char) : Bool :=
  if c.toNat < 128 then isAsciiPunctuation c && !isAsciiSymbol c
  else punctuationBeyondAscii.contains c

/-- Whether the character is a symbol in the sense of the standard. -/
def isSymbol (c : Char) : Bool :=
  if c.toNat < 128 then isAsciiSymbol c else symbolsBeyondAscii.contains c

end Folio.Text
