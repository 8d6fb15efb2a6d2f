import BomTable.Xml.Alphabet.Basic

/-!
Alphabets with Greek letters. An accent stands on its letter, so most vowels have more than one
octet.
-/

namespace BomTable.Xml.Alphabet

def greek : List Alphabet := [
  { names := ["iso8859_7"]
    aliases := ["csisolatingreek", "ecma_118", "elot_928", "greek", "greek8", "iso_8859_7",
      "iso_8859_7_1987", "iso_ir_126"]
    letters := [
      "\u00a0‘’£€₯¦§¨©ͺ«¬\u00ad\ufffd―°±²³΄΅Ά·ΈΉΊ»Ό½ΎΏ",
      "ΐΑΒΓΔΕΖΗΘΙΚΛΜΝΞΟΠΡ\ufffdΣΤΥΦΧΨΩΪΫάέήί",
      "ΰαβγδεζηθικλμνξοπρςστυφχψωϊϋόύώ\ufffd"] },
  { names := ["cp737"]
    letters := [
      "ΑΒΓΔΕΖΗΘΙΚΛΜΝΞΟΠΡΣΤΥΦΧΨΩαβγδεζηθ",
      "ικλμνξοπρσςτυφχψ░▒▓│┤╡╢╖╕╣║╗╝╜╛┐",
      "└┴┬├─┼╞╟╚╔╩╦╠═╬╧╨╤╥╙╘╒╓╫╪┘┌█▄▌▐▀",
      "ωάέήϊίόύϋώΆΈΉΊΌΎΏ±≥≤ΪΫ÷≈°∙·√ⁿ²■\u00a0"] },
  { names := ["cp869"]
    aliases := ["cp_gr", "csibm869", "ibm869"]
    letters := [
      "\ufffd\ufffd\ufffd\ufffd\ufffd\ufffdΆ\ufffd·¬¦‘’Έ―ΉΊΪΌ\ufffd\ufffdΎΫ©Ώ²³ά£έήί",
      "ϊΐόύΑΒΓΔΕΖΗ½ΘΙ«»░▒▓│┤ΚΛΜΝ╣║╗╝ΞΟ┐",
      "└┴┬├─┼ΠΡ╚╔╩╦╠═╬ΣΤΥΦΧΨΩαβγ┘┌█▄δε▀",
      "ζηθικλμνξοπρσςτ΄\u00ad±υφχ§ψ΅°¨ωϋΰώ■\u00a0"] },
  { names := ["cp1253"]
    aliases := ["windows_1253"]
    letters := [
      "€\ufffd‚ƒ„…†‡\ufffd‰\ufffd‹\ufffd\ufffd\ufffd\ufffd",
      "\ufffd‘’“”•–—\ufffd™\ufffd›\ufffd\ufffd\ufffd\ufffd",
      "\u00a0΅Ά£¤¥¦§¨©\ufffd«¬\u00ad®―°±²³΄µ¶·ΈΉΊ»Ό½ΎΏ",
      "ΐΑΒΓΔΕΖΗΘΙΚΛΜΝΞΟΠΡ\ufffdΣΤΥΦΧΨΩΪΫάέήί",
      "ΰαβγδεζηθικλμνξοπρςστυφχψωϊϋόύώ\ufffd"] },
  { names := ["mac_greek"]
    aliases := ["macgreek"]
    letters := [
      "Ä¹²É³ÖÜ΅àâä΄¨çéèêë£™îï•½‰ôö¦€ùûü",
      "†ΓΔΘΛΞΠß®©ΣΪ§≠°·Α±≤≥¥ΒΕΖΗΙΚΜΦΫΨΩ",
      "άΝ¬ΟΡ≈Τ«»…\u00a0ΥΧΆΈœ–―“”‘’÷ΉΊΌΎέήίόΏ",
      "ύαβψδεφγηιξκλμνοπώρστθωςχυζϊϋΐΰ\u00ad"] }]

end BomTable.Xml.Alphabet
