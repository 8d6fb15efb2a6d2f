import BomTable.Xml.Alphabet.Basic

/-!
Alphabets with Cyrillic letters. Those that differ in a few places only belong to languages of one
region each.
-/

namespace BomTable.Xml.Alphabet

def cyrillic : List Alphabet := [
  { names := ["iso8859_5"]
    aliases := ["csisolatincyrillic", "cyrillic", "iso_8859_5", "iso_8859_5_1988", "iso_ir_144"]
    letters := [
      "\u00a0ЁЂЃЄЅІЇЈЉЊЋЌ\u00adЎЏАБВГДЕЖЗИЙКЛМНОП",
      "РСТУФХЦЧШЩЪЫЬЭЮЯабвгдежзийклмноп",
      "рстуфхцчшщъыьэюя№ёђѓєѕіїјљњћќ§ўџ"] },
  { names := ["koi8_r"]
    aliases := ["cskoi8r"]
    letters := [
      "─│┌┐└┘├┤┬┴┼▀▄█▌▐░▒▓⌠■∙√≈≤≥\u00a0⌡°²·÷",
      "═║╒ё╓╔╕╖╗╘╙╚╛╜╝╞╟╠╡Ё╢╣╤╥╦╧╨╩╪╫╬©",
      "юабцдефгхийклмнопярстужвьызшэщчъ",
      "ЮАБЦДЕФГХИЙКЛМНОПЯРСТУЖВЬЫЗШЭЩЧЪ"] },
  { names := ["koi8_t"]
    letters := [
      "қғ‚Ғ„…†‡\ufffd‰ҳ‹ҲҷҶ\ufffdҚ‘’“”•–—\ufffd™\ufffd›\ufffd\ufffd\ufffd\ufffd",
      "\ufffdӯӮё¤ӣ¦§\ufffd\ufffd\ufffd«¬\u00ad®\ufffd",
      "°±²Ё\ufffdӢ¶·\ufffd№\ufffd»\ufffd\ufffd\ufffd©",
      "юабцдефгхийклмнопярстужвьызшэщчъ",
      "ЮАБЦДЕФГХИЙКЛМНОПЯРСТУЖВЬЫЗШЭЩЧЪ"] },
  { names := ["koi8_u"]
    letters := [
      "─│┌┐└┘├┤┬┴┼▀▄█▌▐░▒▓⌠■∙√≈≤≥\u00a0⌡°²·÷",
      "═║╒ёє╔ії╗╘╙╚╛ґ╝╞╟╠╡ЁЄ╣ІЇ╦╧╨╩╪Ґ╬©",
      "юабцдефгхийклмнопярстужвьызшэщчъ",
      "ЮАБЦДЕФГХИЙКЛМНОПЯРСТУЖВЬЫЗШЭЩЧЪ"] },
  { names := ["kz1048"]
    aliases := ["kz_1048", "rk1048", "strk1048_2002"]
    letters := [
      "ЂЃ‚ѓ„…†‡€‰Љ‹ЊҚҺЏђ‘’“”•–—\ufffd™љ›њқһџ",
      "\u00a0ҰұӘ¤Ө¦§Ё©Ғ«¬\u00ad®Ү°±Ііөµ¶·ё№ғ»әҢңү",
      "АБВГДЕЖЗИЙКЛМНОПРСТУФХЦЧШЩЪЫЬЭЮЯ",
      "абвгдежзийклмнопрстуфхцчшщъыьэюя"] },
  { names := ["ptcp154"]
    aliases := ["cp154", "csptcp154", "cyrillic_asian", "pt154"]
    letters := [
      "ҖҒӮғ„…ҶҮҲүҠӢҢҚҺҸҗ‘’“”•–—ҳҷҡӣңқһҹ",
      "\u00a0ЎўЈӨҘҰ§Ё©Ә«¬ӯ®Ҝ°ұІіҙө¶·ё№ә»јҪҫҝ",
      "АБВГДЕЖЗИЙКЛМНОПРСТУФХЦЧШЩЪЫЬЭЮЯ",
      "абвгдежзийклмнопрстуфхцчшщъыьэюя"] },
  { names := ["cp855"]
    aliases := ["csibm855", "ibm855"]
    letters := [
      "ђЂѓЃёЁєЄѕЅіІїЇјЈљЉњЊћЋќЌўЎџЏюЮъЪ",
      "аАбБцЦдДеЕфФгГ«»░▒▓│┤хХиИ╣║╗╝йЙ┐",
      "└┴┬├─┼кК╚╔╩╦╠═╬¤лЛмМнНоОп┘┌█▄Пя▀",
      "ЯрРсСтТуУжЖвВьЬ№\u00adыЫзЗшШэЭщЩчЧ§■\u00a0"] },
  { names := ["cp866"]
    aliases := ["csibm866", "ibm866"]
    letters := [
      "АБВГДЕЖЗИЙКЛМНОПРСТУФХЦЧШЩЪЫЬЭЮЯ",
      "абвгдежзийклмноп░▒▓│┤╡╢╖╕╣║╗╝╜╛┐",
      "└┴┬├─┼╞╟╚╔╩╦╠═╬╧╨╤╥╙╘╒╓╫╪┘┌█▄▌▐▀",
      "рстуфхцчшщъыьэюяЁёЄєЇїЎў°∙·√№¤■\u00a0"] },
  { names := ["cp1125"]
    aliases := ["cp866u", "ibm1125", "ruscii"]
    letters := [
      "АБВГДЕЖЗИЙКЛМНОПРСТУФХЦЧШЩЪЫЬЭЮЯ",
      "абвгдежзийклмноп░▒▓│┤╡╢╖╕╣║╗╝╜╛┐",
      "└┴┬├─┼╞╟╚╔╩╦╠═╬╧╨╤╥╙╘╒╓╫╪┘┌█▄▌▐▀",
      "рстуфхцчшщъыьэюяЁёҐґЄєІіЇї·√№¤■\u00a0"] },
  { names := ["cp1251"]
    aliases := ["windows_1251"]
    letters := [
      "ЂЃ‚ѓ„…†‡€‰Љ‹ЊЌЋЏђ‘’“”•–—\ufffd™љ›њќћџ",
      "\u00a0ЎўЈ¤Ґ¦§Ё©Є«¬\u00ad®Ї°±Ііґµ¶·ё№є»јЅѕї",
      "АБВГДЕЖЗИЙКЛМНОПРСТУФХЦЧШЩЪЫЬЭЮЯ",
      "абвгдежзийклмнопрстуфхцчшщъыьэюя"] },
  { names := ["mac_cyrillic"]
    aliases := ["maccyrillic"]
    letters := [
      "АБВГДЕЖЗИЙКЛМНОПРСТУФХЦЧШЩЪЫЬЭЮЯ",
      "†°Ґ£§•¶І®©™Ђђ≠Ѓѓ∞±≤≥іµґЈЄєЇїЉљЊњ",
      "јЅ¬√ƒ≈∆«»…\u00a0ЋћЌќѕ–—“”‘’÷„ЎўЏџ№Ёёя",
      "абвгдежзийклмнопрстуфхцчшщъыьэю€"] }]

end BomTable.Xml.Alphabet
