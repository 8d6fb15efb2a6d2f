import BomTable.Xml.Alphabet.Basic

/-!
Alphabets with Arabic or Hebrew letters. Letters that are written from right to left are given by
their numbers, as are marks that stand on other letters.
-/

namespace BomTable.Xml.Alphabet

def semitic : List Alphabet := [
  { names := ["iso8859_6"]
    aliases := ["arabic", "asmo_708", "csisolatinarabic", "ecma_114", "iso_8859_6",
      "iso_8859_6_1987", "iso_ir_127"]
    letters := [
      "\u00a0\ufffd\ufffd\ufffd¤\ufffd\ufffd\ufffd\ufffd\ufffd\ufffd\ufffd،\u00ad\ufffd\ufffd",
      "\ufffd\ufffd\ufffd\ufffd\ufffd\ufffd\ufffd\ufffd",
      "\ufffd\ufffd\ufffd\u061b\ufffd\ufffd\ufffd\u061f",
      "\ufffd\u0621\u0622\u0623\u0624\u0625\u0626\u0627",
      "\u0628\u0629\u062a\u062b\u062c\u062d\u062e\u062f",
      "\u0630\u0631\u0632\u0633\u0634\u0635\u0636\u0637",
      "\u0638\u0639\u063a\ufffd\ufffd\ufffd\ufffd\ufffd",
      "\u0640\u0641\u0642\u0643\u0644\u0645\u0646\u0647",
      "\u0648\u0649\u064a\u064b\u064c\u064d\u064e\u064f",
      "\u0650\u0651\u0652\ufffd\ufffd\ufffd\ufffd\ufffd",
      "\ufffd\ufffd\ufffd\ufffd\ufffd\ufffd\ufffd\ufffd"] },
  { names := ["cp720"]
    letters := [
      "\u0080\u0081éâ\u0084à\u0086çêëèïî\u008d\u008e\u008f",
      "\u0090\u0651\u0652ô¤\u0640ûù\u0621\u0622\u0623\u0624£\u0625\u0626\u0627",
      "\u0628\u0629\u062a\u062b\u062c\u062d\u062e\u062f\u0630\u0631\u0632\u0633\u0634\u0635«»",
      "░▒▓│┤╡╢╖╕╣║╗╝╜╛┐",
      "└┴┬├─┼╞╟╚╔╩╦╠═╬╧╨╤╥╙╘╒╓╫╪┘┌█▄▌▐▀",
      "\u0636\u0637\u0638\u0639\u063a\u0641µ\u0642",
      "\u0643\u0644\u0645\u0646\u0647\u0648\u0649\u064a",
      "≡\u064b\u064c\u064d\u064e\u064f\u0650≈°∙·√ⁿ²■\u00a0"] },
  { names := ["cp1006"]
    letters := [
      "\u00a0۰۱۲۳۴۵۶۷۸۹،\u061b\u00ad\u061f\ufe81",
      "\ufe8d\ufe8e\ufe8e\ufe8f\ufe91\ufb56\ufb58\ufe93",
      "\ufe95\ufe97\ufb66\ufb68\ufe99\ufe9b\ufe9d\ufe9f",
      "\ufb7a\ufb7c\ufea1\ufea3\ufea5\ufea7\ufea9\ufb84",
      "\ufeab\ufead\ufb8c\ufeaf\ufb8a\ufeb1\ufeb3\ufeb5",
      "\ufeb7\ufeb9\ufebb\ufebd\ufebf\ufec1\ufec5\ufec9",
      "\ufeca\ufecb\ufecc\ufecd\ufece\ufecf\ufed0\ufed1",
      "\ufed3\ufed5\ufed7\ufed9\ufedb\ufb92\ufb94\ufedd",
      "\ufedf\ufee0\ufee1\ufee3\ufb9e\ufee5\ufee7\ufe85",
      "\ufeed\ufba6\ufba8\ufba9\ufbaa\ufe80\ufe89\ufe8a",
      "\ufe8b\ufef1\ufef2\ufef3\ufbb0\ufbae\ufe7c\ufe7d"] },
  { names := ["cp1256"]
    aliases := ["windows_1256"]
    letters := [
      "€\u067e‚ƒ„…†‡ˆ‰\u0679‹Œ\u0686\u0698\u0688\u06af‘’“”•–—\u06a9™\u0691›œ\u200c\u200d\u06ba",
      "\u00a0،¢£¤¥¦§¨©\u06be«¬\u00ad®¯°±²³´µ¶·¸¹\u061b»¼½¾\u061f",
      "\u06c1\u0621\u0622\u0623\u0624\u0625\u0626\u0627",
      "\u0628\u0629\u062a\u062b\u062c\u062d\u062e\u062f",
      "\u0630\u0631\u0632\u0633\u0634\u0635\u0636×",
      "\u0637\u0638\u0639\u063a\u0640\u0641\u0642\u0643",
      "à\u0644â\u0645\u0646\u0647\u0648çèéêë\u0649\u064aîï",
      "\u064b\u064c\u064d\u064eô\u064f\u0650÷\u0651ù\u0652ûü\u200e\u200f\u06d2"] },
  { names := ["iso8859_8"]
    aliases := ["csisolatinhebrew", "hebrew", "iso_8859_8", "iso_8859_8_1988", "iso_ir_138"]
    letters := [
      "\u00a0\ufffd¢£¤¥¦§¨©×«¬\u00ad®¯°±²³´µ¶·¸¹÷»¼½¾\ufffd",
      "\ufffd\ufffd\ufffd\ufffd\ufffd\ufffd\ufffd\ufffd",
      "\ufffd\ufffd\ufffd\ufffd\ufffd\ufffd\ufffd\ufffd",
      "\ufffd\ufffd\ufffd\ufffd\ufffd\ufffd\ufffd\ufffd",
      "\ufffd\ufffd\ufffd\ufffd\ufffd\ufffd\ufffd‗",
      "\u05d0\u05d1\u05d2\u05d3\u05d4\u05d5\u05d6\u05d7",
      "\u05d8\u05d9\u05da\u05db\u05dc\u05dd\u05de\u05df",
      "\u05e0\u05e1\u05e2\u05e3\u05e4\u05e5\u05e6\u05e7",
      "\u05e8\u05e9\u05ea\ufffd\ufffd\u200e\u200f\ufffd"] },
  { names := ["cp856"]
    letters := [
      "\u05d0\u05d1\u05d2\u05d3\u05d4\u05d5\u05d6\u05d7",
      "\u05d8\u05d9\u05da\u05db\u05dc\u05dd\u05de\u05df",
      "\u05e0\u05e1\u05e2\u05e3\u05e4\u05e5\u05e6\u05e7\u05e8\u05e9\u05ea\ufffd£\ufffd×\ufffd",
      "\ufffd\ufffd\ufffd\ufffd\ufffd\ufffd\ufffd\ufffd\ufffd®¬½¼\ufffd«»",
      "░▒▓│┤\ufffd\ufffd\ufffd©╣║╗╝¢¥┐",
      "└┴┬├─┼\ufffd\ufffd╚╔╩╦╠═╬¤",
      "\ufffd\ufffd\ufffd\ufffd\ufffd\ufffd\ufffd\ufffd\ufffd┘┌█▄¦\ufffd▀",
      "\ufffd\ufffd\ufffd\ufffd\ufffd\ufffdµ\ufffd\ufffd\ufffd\ufffd\ufffd\ufffd\ufffd¯´",
      "\u00ad±‗¾¶§÷¸°¨·¹³²■\u00a0"] },
  { names := ["cp862"]
    aliases := ["cspc862latinhebrew", "ibm862"]
    letters := [
      "\u05d0\u05d1\u05d2\u05d3\u05d4\u05d5\u05d6\u05d7",
      "\u05d8\u05d9\u05da\u05db\u05dc\u05dd\u05de\u05df",
      "\u05e0\u05e1\u05e2\u05e3\u05e4\u05e5\u05e6\u05e7\u05e8\u05e9\u05ea¢£¥₧ƒ",
      "áíóúñÑªº¿⌐¬½¼¡«»░▒▓│┤╡╢╖╕╣║╗╝╜╛┐",
      "└┴┬├─┼╞╟╚╔╩╦╠═╬╧╨╤╥╙╘╒╓╫╪┘┌█▄▌▐▀",
      "αßΓπΣσµτΦΘΩδ∞φε∩≡±≥≤⌠⌡÷≈°∙·√ⁿ²■\u00a0"] },
  { names := ["cp1255"]
    aliases := ["windows_1255"]
    letters := [
      "€\ufffd‚ƒ„…†‡ˆ‰\ufffd‹\ufffd\ufffd\ufffd\ufffd",
      "\ufffd‘’“”•–—˜™\ufffd›\ufffd\ufffd\ufffd\ufffd",
      "\u00a0¡¢£₪¥¦§¨©×«¬\u00ad®¯°±²³´µ¶·¸¹÷»¼½¾¿",
      "\u05b0\u05b1\u05b2\u05b3\u05b4\u05b5\u05b6\u05b7",
      "\u05b8\u05b9\ufffd\u05bb\u05bc\u05bd\u05be\u05bf",
      "\u05c0\u05c1\u05c2\u05c3\u05f0\u05f1\u05f2\u05f3",
      "\u05f4\ufffd\ufffd\ufffd\ufffd\ufffd\ufffd\ufffd",
      "\u05d0\u05d1\u05d2\u05d3\u05d4\u05d5\u05d6\u05d7",
      "\u05d8\u05d9\u05da\u05db\u05dc\u05dd\u05de\u05df",
      "\u05e0\u05e1\u05e2\u05e3\u05e4\u05e5\u05e6\u05e7",
      "\u05e8\u05e9\u05ea\ufffd\ufffd\u200e\u200f\ufffd"] }]

end BomTable.Xml.Alphabet
