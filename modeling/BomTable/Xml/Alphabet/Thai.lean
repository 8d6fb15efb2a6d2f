import BomTable.Xml.Alphabet.Basic

/-!
Alphabets with Thai letters. Vowels and tones that stand above or below another letter are given by
their numbers.
-/

namespace BomTable.Xml.Alphabet

def thai : List Alphabet := [
  { names := ["iso8859_11"]
    aliases := ["iso_8859_11", "iso_8859_11_2001", "thai"]
    letters := [
      "\u00a0กขฃคฅฆงจฉชซฌญฎฏฐฑฒณดตถทธนบปผฝพฟ",
      "ภมยรฤลฦวศษสหฬอฮฯ",
      "ะ\u0e31าำ\u0e34\u0e35\u0e36\u0e37\u0e38\u0e39\u0e3a\ufffd\ufffd\ufffd\ufffd฿",
      "เแโใไๅๆ\u0e47\u0e48\u0e49\u0e4a\u0e4b\u0e4c\u0e4d\u0e4e๏",
      "๐๑๒๓๔๕๖๗๘๙๚๛\ufffd\ufffd\ufffd\ufffd"] },
  { names := ["tis_620"]
    aliases := ["iso_ir_166", "tis620", "tis_620_0", "tis_620_2529_0", "tis_620_2529_1"]
    letters := [
      "\ufffdกขฃคฅฆงจฉชซฌญฎฏฐฑฒณดตถทธนบปผฝพฟ",
      "ภมยรฤลฦวศษสหฬอฮฯ",
      "ะ\u0e31าำ\u0e34\u0e35\u0e36\u0e37\u0e38\u0e39\u0e3a\ufffd\ufffd\ufffd\ufffd฿",
      "เแโใไๅๆ\u0e47\u0e48\u0e49\u0e4a\u0e4b\u0e4c\u0e4d\u0e4e๏",
      "๐๑๒๓๔๕๖๗๘๙๚๛\ufffd\ufffd\ufffd\ufffd"] },
  { names := ["cp874"]
    letters := [
      "€\ufffd\ufffd\ufffd\ufffd…\ufffd\ufffd\ufffd\ufffd\ufffd\ufffd\ufffd\ufffd\ufffd\ufffd",
      "\ufffd‘’“”•–—\ufffd\ufffd\ufffd\ufffd\ufffd\ufffd\ufffd\ufffd",
      "\u00a0กขฃคฅฆงจฉชซฌญฎฏฐฑฒณดตถทธนบปผฝพฟ",
      "ภมยรฤลฦวศษสหฬอฮฯ",
      "ะ\u0e31าำ\u0e34\u0e35\u0e36\u0e37\u0e38\u0e39\u0e3a\ufffd\ufffd\ufffd\ufffd฿",
      "เแโใไๅๆ\u0e47\u0e48\u0e49\u0e4a\u0e4b\u0e4c\u0e4d\u0e4e๏",
      "๐๑๒๓๔๕๖๗๘๙๚๛\ufffd\ufffd\ufffd\ufffd"] }]

end BomTable.Xml.Alphabet
