import BomTable.Xml.Alphabet.Basic

/-!
Alphabets of the languages that are written with Latin letters. Some have signs for borders and
formulas besides, in the place of letters for other languages.
-/

namespace BomTable.Xml.Alphabet

def latin : List Alphabet := [
  { names := ["iso8859_2"]
    aliases := ["csisolatin2", "iso_8859_2", "iso_8859_2_1987", "iso_ir_101", "l2", "latin2"]
    letters := [
      "\u00a0Ą˘Ł¤ĽŚ§¨ŠŞŤŹ\u00adŽŻ°ą˛ł´ľśˇ¸šşťź˝žż",
      "ŔÁÂĂÄĹĆÇČÉĘËĚÍÎĎĐŃŇÓÔŐÖ×ŘŮÚŰÜÝŢß",
      "ŕáâăäĺćçčéęëěíîďđńňóôőö÷řůúűüýţ˙"] },
  { names := ["iso8859_3"]
    aliases := ["csisolatin3", "iso_8859_3", "iso_8859_3_1988", "iso_ir_109", "l3", "latin3"]
    letters := [
      "\u00a0Ħ˘£¤\ufffdĤ§¨İŞĞĴ\u00ad\ufffdŻ°ħ²³´µĥ·¸ışğĵ½\ufffdż",
      "ÀÁÂ\ufffdÄĊĈÇÈÉÊËÌÍÎÏ\ufffdÑÒÓÔĠÖ×ĜÙÚÛÜŬŜß",
      "àáâ\ufffdäċĉçèéêëìíîï\ufffdñòóôġö÷ĝùúûüŭŝ˙"] },
  { names := ["iso8859_4"]
    aliases := ["csisolatin4", "iso_8859_4", "iso_8859_4_1988", "iso_ir_110", "l4", "latin4"]
    letters := [
      "\u00a0ĄĸŖ¤ĨĻ§¨ŠĒĢŦ\u00adŽ¯°ą˛ŗ´ĩļˇ¸šēģŧŊžŋ",
      "ĀÁÂÃÄÅÆĮČÉĘËĖÍÎĪĐŅŌĶÔÕÖ×ØŲÚÛÜŨŪß",
      "āáâãäåæįčéęëėíîīđņōķôõö÷øųúûüũū˙"] },
  { names := ["iso8859_9"]
    aliases := ["csisolatin5", "iso_8859_9", "iso_8859_9_1989", "iso_ir_148", "l5", "latin5"]
    letters := [
      "\u00a0¡¢£¤¥¦§¨©ª«¬\u00ad®¯°±²³´µ¶·¸¹º»¼½¾¿",
      "ÀÁÂÃÄÅÆÇÈÉÊËÌÍÎÏĞÑÒÓÔÕÖ×ØÙÚÛÜİŞß",
      "àáâãäåæçèéêëìíîïğñòóôõö÷øùúûüışÿ"] },
  { names := ["iso8859_10"]
    aliases := ["csisolatin6", "iso_8859_10", "iso_8859_10_1992", "iso_ir_157", "l6", "latin6"]
    letters := [
      "\u00a0ĄĒĢĪĨĶ§ĻĐŠŦŽ\u00adŪŊ°ąēģīĩķ·ļđšŧž―ūŋ",
      "ĀÁÂÃÄÅÆĮČÉĘËĖÍÎÏÐŅŌÓÔÕÖŨØŲÚÛÜÝÞß",
      "āáâãäåæįčéęëėíîïðņōóôõöũøųúûüýþĸ"] },
  { names := ["iso8859_13"]
    aliases := ["iso_8859_13", "l7", "latin7"]
    letters := [
      "\u00a0”¢£¤„¦§Ø©Ŗ«¬\u00ad®Æ°±²³“µ¶·ø¹ŗ»¼½¾æ",
      "ĄĮĀĆÄÅĘĒČÉŹĖĢĶĪĻŠŃŅÓŌÕÖ×ŲŁŚŪÜŻŽß",
      "ąįāćäåęēčéźėģķīļšńņóōõö÷ųłśūüżž’"] },
  { names := ["iso8859_14"]
    aliases := ["iso_8859_14", "iso_8859_14_1998", "iso_celtic", "iso_ir_199", "l8", "latin8"]
    letters := [
      "\u00a0Ḃḃ£ĊċḊ§Ẁ©ẂḋỲ\u00ad®ŸḞḟĠġṀṁ¶ṖẁṗẃṠỳẄẅṡ",
      "ÀÁÂÃÄÅÆÇÈÉÊËÌÍÎÏŴÑÒÓÔÕÖṪØÙÚÛÜÝŶß",
      "àáâãäåæçèéêëìíîïŵñòóôõöṫøùúûüýŷÿ"] },
  { names := ["iso8859_15"]
    aliases := ["iso_8859_15", "l9", "latin9"]
    letters := [
      "\u00a0¡¢£€¥Š§š©ª«¬\u00ad®¯°±²³Žµ¶·ž¹º»ŒœŸ¿",
      "ÀÁÂÃÄÅÆÇÈÉÊËÌÍÎÏÐÑÒÓÔÕÖ×ØÙÚÛÜÝÞß",
      "àáâãäåæçèéêëìíîïðñòóôõö÷øùúûüýþÿ"] },
  { names := ["iso8859_16"]
    aliases := ["iso_8859_16", "iso_8859_16_2001", "iso_ir_226", "l10", "latin10"]
    letters := [
      "\u00a0ĄąŁ€„Š§š©Ș«Ź\u00adźŻ°±ČłŽ”¶·žčș»ŒœŸż",
      "ÀÁÂĂÄĆÆÇÈÉÊËÌÍÎÏĐŃÒÓÔŐÖŚŰÙÚÛÜĘȚß",
      "àáâăäćæçèéêëìíîïđńòóôőöśűùúûüęțÿ"] },
  { names := ["hp_roman8"]
    aliases := ["cp1051", "ibm1051", "r8", "roman8"]
    letters := [
      "\u00a0ÀÂÈÊËÎÏ´ˋˆ¨˜ÙÛ₤¯Ýý°ÇçÑñ¡¿¤£¥§ƒ¢",
      "âêôûáéóúàèòùäëöüÅîØÆåíøæÄìÖÜÉïßÔ",
      "ÁÃãÐðÍÌÓÒÕõŠšÚŸÿÞþ·µ¶¾—¼½ªº«■»±\ufffd"] },
  { names := ["cp437"]
    aliases := ["cspc8codepage437", "ibm437"]
    letters := [
      "ÇüéâäàåçêëèïîìÄÅÉæÆôöòûùÿÖÜ¢£¥₧ƒ",
      "áíóúñÑªº¿⌐¬½¼¡«»░▒▓│┤╡╢╖╕╣║╗╝╜╛┐",
      "└┴┬├─┼╞╟╚╔╩╦╠═╬╧╨╤╥╙╘╒╓╫╪┘┌█▄▌▐▀",
      "αßΓπΣσµτΦΘΩδ∞φε∩≡±≥≤⌠⌡÷≈°∙·√ⁿ²■\u00a0"] },
  { names := ["cp775"]
    aliases := ["cspc775baltic", "ibm775"]
    letters := [
      "ĆüéāäģåćłēŖŗīŹÄÅÉæÆōöĢ¢ŚśÖÜø£Ø×¤",
      "ĀĪóŻżź”¦©®¬½¼Ł«»░▒▓│┤ĄČĘĖ╣║╗╝ĮŠ┐",
      "└┴┬├─┼ŲŪ╚╔╩╦╠═╬Žąčęėįšųūž┘┌█▄▌▐▀",
      "ÓßŌŃõÕµńĶķĻļņĒŅ’\u00ad±“¾¶§÷„°∙·¹³²■\u00a0"] },
  { names := ["cp850"]
    aliases := ["cspc850multilingual", "ibm850"]
    letters := [
      "ÇüéâäàåçêëèïîìÄÅÉæÆôöòûùÿÖÜø£Ø×ƒ",
      "áíóúñÑªº¿®¬½¼¡«»░▒▓│┤ÁÂÀ©╣║╗╝¢¥┐",
      "└┴┬├─┼ãÃ╚╔╩╦╠═╬¤ðÐÊËÈıÍÎÏ┘┌█▄¦Ì▀",
      "ÓßÔÒõÕµþÞÚÛÙýÝ¯´\u00ad±‗¾¶§÷¸°¨·¹³²■\u00a0"] },
  { names := ["cp852"]
    aliases := ["cspcp852", "ibm852"]
    letters := [
      "ÇüéâäůćçłëŐőîŹÄĆÉĹĺôöĽľŚśÖÜŤťŁ×č",
      "áíóúĄąŽžĘę¬źČş«»░▒▓│┤ÁÂĚŞ╣║╗╝Żż┐",
      "└┴┬├─┼Ăă╚╔╩╦╠═╬¤đĐĎËďŇÍÎě┘┌█▄ŢŮ▀",
      "ÓßÔŃńňŠšŔÚŕŰýÝţ´\u00ad˝˛ˇ˘§÷¸°¨˙űŘř■\u00a0"] },
  { names := ["cp857"]
    aliases := ["csibm857", "ibm857"]
    letters := [
      "ÇüéâäàåçêëèïîıÄÅÉæÆôöòûùİÖÜø£ØŞş",
      "áíóúñÑĞğ¿®¬½¼¡«»░▒▓│┤ÁÂÀ©╣║╗╝¢¥┐",
      "└┴┬├─┼ãÃ╚╔╩╦╠═╬¤ºªÊËÈ\ufffdÍÎÏ┘┌█▄¦Ì▀",
      "ÓßÔÒõÕµ\ufffd×ÚÛÙìÿ¯´\u00ad±\ufffd¾¶§÷¸°¨·¹³²■\u00a0"] },
  { names := ["cp858"]
    aliases := ["csibm858", "ibm858"]
    letters := [
      "ÇüéâäàåçêëèïîìÄÅÉæÆôöòûùÿÖÜø£Ø×ƒ",
      "áíóúñÑªº¿®¬½¼¡«»░▒▓│┤ÁÂÀ©╣║╗╝¢¥┐",
      "└┴┬├─┼ãÃ╚╔╩╦╠═╬¤ðÐÊËÈ€ÍÎÏ┘┌█▄¦Ì▀",
      "ÓßÔÒõÕµþÞÚÛÙýÝ¯´\u00ad±‗¾¶§÷¸°¨·¹³²■\u00a0"] },
  { names := ["cp860"]
    aliases := ["csibm860", "ibm860"]
    letters := [
      "ÇüéâãàÁçêÊèÍÔìÃÂÉÀÈôõòÚùÌÕÜ¢£Ù₧Ó",
      "áíóúñÑªº¿Ò¬½¼¡«»░▒▓│┤╡╢╖╕╣║╗╝╜╛┐",
      "└┴┬├─┼╞╟╚╔╩╦╠═╬╧╨╤╥╙╘╒╓╫╪┘┌█▄▌▐▀",
      "αßΓπΣσµτΦΘΩδ∞φε∩≡±≥≤⌠⌡÷≈°∙·√ⁿ²■\u00a0"] },
  { names := ["cp861"]
    aliases := ["cp_is", "csibm861", "ibm861"]
    letters := [
      "ÇüéâäàåçêëèÐðÞÄÅÉæÆôöþûÝýÖÜø£Ø₧ƒ",
      "áíóúÁÍÓÚ¿⌐¬½¼¡«»░▒▓│┤╡╢╖╕╣║╗╝╜╛┐",
      "└┴┬├─┼╞╟╚╔╩╦╠═╬╧╨╤╥╙╘╒╓╫╪┘┌█▄▌▐▀",
      "αßΓπΣσµτΦΘΩδ∞φε∩≡±≥≤⌠⌡÷≈°∙·√ⁿ²■\u00a0"] },
  { names := ["cp863"]
    aliases := ["csibm863", "ibm863"]
    letters := [
      "ÇüéâÂà¶çêëèïî‗À§ÉÈÊôËÏûù¤ÔÜ¢£ÙÛƒ",
      "¦´óú¨¸³¯Î⌐¬½¼¾«»░▒▓│┤╡╢╖╕╣║╗╝╜╛┐",
      "└┴┬├─┼╞╟╚╔╩╦╠═╬╧╨╤╥╙╘╒╓╫╪┘┌█▄▌▐▀",
      "αßΓπΣσµτΦΘΩδ∞φε∩≡±≥≤⌠⌡÷≈°∙·√ⁿ²■\u00a0"] },
  { names := ["cp865"]
    aliases := ["csibm865", "ibm865"]
    letters := [
      "ÇüéâäàåçêëèïîìÄÅÉæÆôöòûùÿÖÜø£Ø₧ƒ",
      "áíóúñÑªº¿⌐¬½¼¡«¤░▒▓│┤╡╢╖╕╣║╗╝╜╛┐",
      "└┴┬├─┼╞╟╚╔╩╦╠═╬╧╨╤╥╙╘╒╓╫╪┘┌█▄▌▐▀",
      "αßΓπΣσµτΦΘΩδ∞φε∩≡±≥≤⌠⌡÷≈°∙·√ⁿ²■\u00a0"] },
  { names := ["cp1250"]
    aliases := ["windows_1250"]
    letters := [
      "€\ufffd‚\ufffd„…†‡\ufffd‰Š‹ŚŤŽŹ\ufffd‘’“”•–—\ufffd™š›śťžź",
      "\u00a0ˇ˘Ł¤Ą¦§¨©Ş«¬\u00ad®Ż°±˛ł´µ¶·¸ąş»Ľ˝ľż",
      "ŔÁÂĂÄĹĆÇČÉĘËĚÍÎĎĐŃŇÓÔŐÖ×ŘŮÚŰÜÝŢß",
      "ŕáâăäĺćçčéęëěíîďđńňóôőö÷řůúűüýţ˙"] },
  { names := ["cp1252"]
    aliases := ["windows_1252"]
    letters := [
      "€\ufffd‚ƒ„…†‡ˆ‰Š‹Œ\ufffdŽ\ufffd\ufffd‘’“”•–—˜™š›œ\ufffdžŸ",
      "\u00a0¡¢£¤¥¦§¨©ª«¬\u00ad®¯°±²³´µ¶·¸¹º»¼½¾¿",
      "ÀÁÂÃÄÅÆÇÈÉÊËÌÍÎÏÐÑÒÓÔÕÖ×ØÙÚÛÜÝÞß",
      "àáâãäåæçèéêëìíîïðñòóôõö÷øùúûüýþÿ"] },
  { names := ["cp1254"]
    aliases := ["windows_1254"]
    letters := [
      "€\ufffd‚ƒ„…†‡ˆ‰Š‹Œ\ufffd\ufffd\ufffd\ufffd‘’“”•–—˜™š›œ\ufffd\ufffdŸ",
      "\u00a0¡¢£¤¥¦§¨©ª«¬\u00ad®¯°±²³´µ¶·¸¹º»¼½¾¿",
      "ÀÁÂÃÄÅÆÇÈÉÊËÌÍÎÏĞÑÒÓÔÕÖ×ØÙÚÛÜİŞß",
      "àáâãäåæçèéêëìíîïğñòóôõö÷øùúûüışÿ"] },
  { names := ["cp1257"]
    aliases := ["windows_1257"]
    letters := [
      "€\ufffd‚\ufffd„…†‡\ufffd‰\ufffd‹\ufffd¨ˇ¸\ufffd‘’“”•–—\ufffd™\ufffd›\ufffd¯˛\ufffd",
      "\u00a0\ufffd¢£¤\ufffd¦§Ø©Ŗ«¬\u00ad®Æ°±²³´µ¶·ø¹ŗ»¼½¾æ",
      "ĄĮĀĆÄÅĘĒČÉŹĖĢĶĪĻŠŃŅÓŌÕÖ×ŲŁŚŪÜŻŽß",
      "ąįāćäåęēčéźėģķīļšńņóōõö÷ųłśūüżž˙"] },
  { names := ["cp1258"]
    aliases := ["windows_1258"]
    letters := [
      "€\ufffd‚ƒ„…†‡ˆ‰\ufffd‹Œ\ufffd\ufffd\ufffd\ufffd‘’“”•–—˜™\ufffd›œ\ufffd\ufffdŸ",
      "\u00a0¡¢£¤¥¦§¨©ª«¬\u00ad®¯°±²³´µ¶·¸¹º»¼½¾¿",
      "ÀÁÂĂÄÅÆÇÈÉÊË\u0300ÍÎÏĐÑ\u0309ÓÔƠÖ×ØÙÚÛÜƯ\u0303ß",
      "àáâăäåæçèéêë\u0301íîïđñ\u0323óôơö÷øùúûüư₫ÿ"] },
  { names := ["mac_croatian"]
    letters := [
      "ÄÅÇÉÑÖÜáàâäãåçéèêëíìîïñóòôöõúùûü",
      "†°¢£§•¶ß®Š™´¨≠ŽØ∞±≤≥∆µ∂∑∏š∫ªºΩžø",
      "¿¡¬√ƒ≈Ć«Č…\u00a0ÀÃÕŒœĐ—“”‘’÷◊\uf8ff©⁄€‹›Æ»",
      "–·‚„‰ÂćÁčÈÍÎÏÌÓÔđÒÚÛÙıˆ˜¯πË˚¸Êæˇ"] },
  { names := ["mac_iceland"]
    aliases := ["maciceland"]
    letters := [
      "ÄÅÇÉÑÖÜáàâäãåçéèêëíìîïñóòôöõúùûü",
      "Ý°¢£§•¶ß®©™´¨≠ÆØ∞±≤≥¥µ∂∑∏π∫ªºΩæø",
      "¿¡¬√ƒ≈∆«»…\u00a0ÀÃÕŒœ–—“”‘’÷◊ÿŸ⁄€ÐðÞþ",
      "ý·‚„‰ÂÊÁËÈÍÎÏÌÓÔ\uf8ffÒÚÛÙıˆ˜¯˘˙˚¸˝˛ˇ"] },
  { names := ["mac_latin2"]
    aliases := ["mac_centeuro", "maccentraleurope", "maclatin2"]
    letters := [
      "ÄĀāÉĄÖÜáąČäčĆćéŹźĎíďĒēĖóėôöõúĚěü",
      "†°Ę£§•¶ß®©™ę¨≠ģĮįĪ≤≥īĶ∂∑łĻļĽľĹĺŅ",
      "ņŃ¬√ńŇ∆«»…\u00a0ňŐÕőŌ–—“”‘’÷◊ōŔŕŘ‹›řŖ",
      "ŗŠ‚„šŚśÁŤťÍŽžŪÓÔūŮÚůŰűŲųÝýķŻŁżĢˇ"] },
  { names := ["mac_roman"]
    aliases := ["macintosh", "macroman"]
    letters := [
      "ÄÅÇÉÑÖÜáàâäãåçéèêëíìîïñóòôöõúùûü",
      "†°¢£§•¶ß®©™´¨≠ÆØ∞±≤≥¥µ∂∑∏π∫ªºΩæø",
      "¿¡¬√ƒ≈∆«»…\u00a0ÀÃÕŒœ–—“”‘’÷◊ÿŸ⁄€‹›ﬁﬂ",
      "‡·‚„‰ÂÊÁËÈÍÎÏÌÓÔ\uf8ffÒÚÛÙıˆ˜¯˘˙˚¸˝˛ˇ"] },
  { names := ["mac_romanian"]
    letters := [
      "ÄÅÇÉÑÖÜáàâäãåçéèêëíìîïñóòôöõúùûü",
      "†°¢£§•¶ß®©™´¨≠ĂȘ∞±≤≥¥µ∂∑∏π∫ªºΩăș",
      "¿¡¬√ƒ≈∆«»…\u00a0ÀÃÕŒœ–—“”‘’÷◊ÿŸ⁄€‹›Țț",
      "‡·‚„‰ÂÊÁËÈÍÎÏÌÓÔ\uf8ffÒÚÛÙıˆ˜¯˘˙˚¸˝˛ˇ"] },
  { names := ["mac_turkish"]
    aliases := ["macturkish"]
    letters := [
      "ÄÅÇÉÑÖÜáàâäãåçéèêëíìîïñóòôöõúùûü",
      "†°¢£§•¶ß®©™´¨≠ÆØ∞±≤≥¥µ∂∑∏π∫ªºΩæø",
      "¿¡¬√ƒ≈∆«»…\u00a0ÀÃÕŒœ–—“”‘’÷◊ÿŸĞğİıŞş",
      "‡·‚„‰ÂÊÁËÈÍÎÏÌÓÔ\uf8ffÒÚÛÙ\uf8a0ˆ˜¯˘˙˚¸˝˛ˇ"] },
  { names := ["palmos"]
    letters := [
      "€\u0081‚ƒ„…†‡ˆ‰Š‹Œ♦♣♥♠‘’“”•–—˜™š\u009bœ\u009d\u009eŸ",
      "\u00a0¡¢£¤¥¦§¨©ª«¬\u00ad®¯°±²³´µ¶·¸¹º»¼½¾¿",
      "ÀÁÂÃÄÅÆÇÈÉÊËÌÍÎÏÐÑÒÓÔÕÖ×ØÙÚÛÜÝÞß",
      "àáâãäåæçèéêëìíîïðñòóôõö÷øùúûüýþÿ"] }]

end BomTable.Xml.Alphabet
