/-!
# Code pages

Encodings of one byte per character that a document may declare: for each, the characters of the
bytes from 0x80 on. The bytes below are ASCII in all of them.

**What is exact.** U+FFFD marks a byte without a character. An encoding is found by its name in
lower case with every run of other signs than letters, digits and dots read as one underscore; other
names of an encoding lead to the same one, also with dots for underscores. Encodings that are not
read are known by name, as the reason for which they are refused hangs on it.
-/

namespace StationNaming.Xml

/-! ## Tables -/

/-- The upper halves of the pages. -/
def codePages : List (String × String) := [
  ("cp1006",
    "\u0080\u0081\u0082\u0083\u0084\u0085\u0086\u0087\u0088\u0089\u008a\u008b\u008c\u008d" ++
    "\u008e\u008f\u0090\u0091\u0092\u0093\u0094\u0095\u0096\u0097\u0098\u0099\u009a\u009b" ++
    "\u009c\u009d\u009e\u009f\u00a0۰۱۲۳۴۵۶۷۸۹،\u061b\u00ad\u061f\ufe81\ufe8d\ufe8e\ufe8e\ufe8f" ++
    "\ufe91\ufb56\ufb58\ufe93\ufe95\ufe97\ufb66\ufb68\ufe99\ufe9b\ufe9d\ufe9f\ufb7a\ufb7c" ++
    "\ufea1\ufea3\ufea5\ufea7\ufea9\ufb84\ufeab\ufead\ufb8c\ufeaf\ufb8a\ufeb1\ufeb3\ufeb5" ++
    "\ufeb7\ufeb9\ufebb\ufebd\ufebf\ufec1\ufec5\ufec9\ufeca\ufecb\ufecc\ufecd\ufece\ufecf" ++
    "\ufed0\ufed1\ufed3\ufed5\ufed7\ufed9\ufedb\ufb92\ufb94\ufedd\ufedf\ufee0\ufee1\ufee3" ++
    "\ufb9e\ufee5\ufee7\ufe85\ufeed\ufba6\ufba8\ufba9\ufbaa\ufe80\ufe89\ufe8a\ufe8b\ufef1" ++
    "\ufef2\ufef3\ufbb0\ufbae\ufe7c\ufe7d"),
  ("cp1125",
    "АБВГДЕЖЗИЙКЛМНОПРСТУФХЦЧШЩЪЫЬЭЮЯабвгдежзийклмноп░▒▓│┤╡╢╖╕╣║╗╝╜╛┐└┴┬├─┼╞╟╚╔╩╦╠═╬╧╨╤╥╙╘╒╓╫╪" ++
    "┘┌█▄▌▐▀рстуфхцчшщъыьэюяЁёҐґЄєІіЇї·√№¤■\u00a0"),
  ("cp1250",
    "€�‚�„…†‡�‰Š‹ŚŤŽŹ�‘’“”•–—�™š›śťžź\u00a0ˇ˘Ł¤Ą¦§¨©Ş«¬\u00ad®Ż°±˛ł´µ¶·¸ąş»Ľ˝ľżŔÁÂĂÄĹĆÇČÉĘËĚÍÎ" ++
    "ĎĐŃŇÓÔŐÖ×ŘŮÚŰÜÝŢßŕáâăäĺćçčéęëěíîďđńňóôőö÷řůúűüýţ˙"),
  ("cp1251",
    "ЂЃ‚ѓ„…†‡€‰Љ‹ЊЌЋЏђ‘’“”•–—�™љ›њќћџ\u00a0ЎўЈ¤Ґ¦§Ё©Є«¬\u00ad®Ї°±Ііґµ¶·ё№є»јЅѕїАБВГДЕЖЗИЙКЛМНО" ++
    "ПРСТУФХЦЧШЩЪЫЬЭЮЯабвгдежзийклмнопрстуфхцчшщъыьэюя"),
  ("cp1252",
    "€�‚ƒ„…†‡ˆ‰Š‹Œ�Ž��‘’“”•–—˜™š›œ�žŸ\u00a0¡¢£¤¥¦§¨©ª«¬\u00ad®¯°±²³´µ¶·¸¹º»¼½¾¿ÀÁÂÃÄÅÆÇÈÉÊËÌÍÎ" ++
    "ÏÐÑÒÓÔÕÖ×ØÙÚÛÜÝÞßàáâãäåæçèéêëìíîïðñòóôõö÷øùúûüýþÿ"),
  ("cp1253",
    "€�‚ƒ„…†‡�‰�‹�����‘’“”•–—�™�›����\u00a0΅Ά£¤¥¦§¨©�«¬\u00ad®―°±²³΄µ¶·ΈΉΊ»Ό½ΎΏΐΑΒΓΔΕΖΗΘΙΚΛΜΝΞ" ++
    "ΟΠΡ�ΣΤΥΦΧΨΩΪΫάέήίΰαβγδεζηθικλμνξοπρςστυφχψωϊϋόύώ�"),
  ("cp1254",
    "€�‚ƒ„…†‡ˆ‰Š‹Œ����‘’“”•–—˜™š›œ��Ÿ\u00a0¡¢£¤¥¦§¨©ª«¬\u00ad®¯°±²³´µ¶·¸¹º»¼½¾¿ÀÁÂÃÄÅÆÇÈÉÊËÌÍÎ" ++
    "ÏĞÑÒÓÔÕÖ×ØÙÚÛÜİŞßàáâãäåæçèéêëìíîïğñòóôõö÷øùúûüışÿ"),
  ("cp1255",
    "€�‚ƒ„…†‡ˆ‰�‹�����‘’“”•–—˜™�›����\u00a0¡¢£₪¥¦§¨©×«¬\u00ad®¯°±²³´µ¶·¸¹÷»¼½¾¿\u05b0\u05b1" ++
    "\u05b2\u05b3\u05b4\u05b5\u05b6\u05b7\u05b8\u05b9�\u05bb\u05bc\u05bd\u05be\u05bf\u05c0" ++
    "\u05c1\u05c2\u05c3\u05f0\u05f1\u05f2\u05f3\u05f4�������\u05d0\u05d1\u05d2\u05d3\u05d4" ++
    "\u05d5\u05d6\u05d7\u05d8\u05d9\u05da\u05db\u05dc\u05dd\u05de\u05df\u05e0\u05e1\u05e2" ++
    "\u05e3\u05e4\u05e5\u05e6\u05e7\u05e8\u05e9\u05ea��\u200e\u200f�"),
  ("cp1256",
    "€\u067e‚ƒ„…†‡ˆ‰\u0679‹Œ\u0686\u0698\u0688\u06af‘’“”•–—\u06a9™\u0691›œ\u200c\u200d\u06ba" ++
    "\u00a0،¢£¤¥¦§¨©\u06be«¬\u00ad®¯°±²³´µ¶·¸¹\u061b»¼½¾\u061f\u06c1\u0621\u0622\u0623\u0624" ++
    "\u0625\u0626\u0627\u0628\u0629\u062a\u062b\u062c\u062d\u062e\u062f\u0630\u0631\u0632" ++
    "\u0633\u0634\u0635\u0636×\u0637\u0638\u0639\u063a\u0640\u0641\u0642\u0643à\u0644â\u0645" ++
    "\u0646\u0647\u0648çèéêë\u0649\u064aîï\u064b\u064c\u064d\u064eô\u064f\u0650÷\u0651ù\u0652û" ++
    "ü\u200e\u200f\u06d2"),
  ("cp1257",
    "€�‚�„…†‡�‰�‹�¨ˇ¸�‘’“”•–—�™�›�¯˛�\u00a0�¢£¤�¦§Ø©Ŗ«¬\u00ad®Æ°±²³´µ¶·ø¹ŗ»¼½¾æĄĮĀĆÄÅĘĒČÉŹĖĢĶĪ" ++
    "ĻŠŃŅÓŌÕÖ×ŲŁŚŪÜŻŽßąįāćäåęēčéźėģķīļšńņóōõö÷ųłśūüżž˙"),
  ("cp1258",
    "€�‚ƒ„…†‡ˆ‰�‹Œ����‘’“”•–—˜™�›œ��Ÿ\u00a0¡¢£¤¥¦§¨©ª«¬\u00ad®¯°±²³´µ¶·¸¹º»¼½¾¿ÀÁÂĂÄÅÆÇÈÉÊË" ++
    "\u0300ÍÎÏĐÑ\u0309ÓÔƠÖ×ØÙÚÛÜƯ\u0303ßàáâăäåæçèéêë\u0301íîïđñ\u0323óôơö÷øùúûüư₫ÿ"),
  ("cp437",
    "ÇüéâäàåçêëèïîìÄÅÉæÆôöòûùÿÖÜ¢£¥₧ƒáíóúñÑªº¿⌐¬½¼¡«»░▒▓│┤╡╢╖╕╣║╗╝╜╛┐└┴┬├─┼╞╟╚╔╩╦╠═╬╧╨╤╥╙╘╒╓╫╪" ++
    "┘┌█▄▌▐▀αßΓπΣσµτΦΘΩδ∞φε∩≡±≥≤⌠⌡÷≈°∙·√ⁿ²■\u00a0"),
  ("cp720",
    "\u0080\u0081éâ\u0084à\u0086çêëèïî\u008d\u008e\u008f\u0090\u0651\u0652ô¤\u0640ûù\u0621" ++
    "\u0622\u0623\u0624£\u0625\u0626\u0627\u0628\u0629\u062a\u062b\u062c\u062d\u062e\u062f" ++
    "\u0630\u0631\u0632\u0633\u0634\u0635«»░▒▓│┤╡╢╖╕╣║╗╝╜╛┐└┴┬├─┼╞╟╚╔╩╦╠═╬╧╨╤╥╙╘╒╓╫╪┘┌█▄▌▐▀" ++
    "\u0636\u0637\u0638\u0639\u063a\u0641µ\u0642\u0643\u0644\u0645\u0646\u0647\u0648\u0649" ++
    "\u064a≡\u064b\u064c\u064d\u064e\u064f\u0650≈°∙·√ⁿ²■\u00a0"),
  ("cp737",
    "ΑΒΓΔΕΖΗΘΙΚΛΜΝΞΟΠΡΣΤΥΦΧΨΩαβγδεζηθικλμνξοπρσςτυφχψ░▒▓│┤╡╢╖╕╣║╗╝╜╛┐└┴┬├─┼╞╟╚╔╩╦╠═╬╧╨╤╥╙╘╒╓╫╪" ++
    "┘┌█▄▌▐▀ωάέήϊίόύϋώΆΈΉΊΌΎΏ±≥≤ΪΫ÷≈°∙·√ⁿ²■\u00a0"),
  ("cp775",
    "ĆüéāäģåćłēŖŗīŹÄÅÉæÆōöĢ¢ŚśÖÜø£Ø×¤ĀĪóŻżź”¦©®¬½¼Ł«»░▒▓│┤ĄČĘĖ╣║╗╝ĮŠ┐└┴┬├─┼ŲŪ╚╔╩╦╠═╬Žąčęėįšųūž" ++
    "┘┌█▄▌▐▀ÓßŌŃõÕµńĶķĻļņĒŅ’\u00ad±“¾¶§÷„°∙·¹³²■\u00a0"),
  ("cp850",
    "ÇüéâäàåçêëèïîìÄÅÉæÆôöòûùÿÖÜø£Ø×ƒáíóúñÑªº¿®¬½¼¡«»░▒▓│┤ÁÂÀ©╣║╗╝¢¥┐└┴┬├─┼ãÃ╚╔╩╦╠═╬¤ðÐÊËÈıÍÎÏ" ++
    "┘┌█▄¦Ì▀ÓßÔÒõÕµþÞÚÛÙýÝ¯´\u00ad±‗¾¶§÷¸°¨·¹³²■\u00a0"),
  ("cp852",
    "ÇüéâäůćçłëŐőîŹÄĆÉĹĺôöĽľŚśÖÜŤťŁ×čáíóúĄąŽžĘę¬źČş«»░▒▓│┤ÁÂĚŞ╣║╗╝Żż┐└┴┬├─┼Ăă╚╔╩╦╠═╬¤đĐĎËďŇÍÎě" ++
    "┘┌█▄ŢŮ▀ÓßÔŃńňŠšŔÚŕŰýÝţ´\u00ad˝˛ˇ˘§÷¸°¨˙űŘř■\u00a0"),
  ("cp855",
    "ђЂѓЃёЁєЄѕЅіІїЇјЈљЉњЊћЋќЌўЎџЏюЮъЪаАбБцЦдДеЕфФгГ«»░▒▓│┤хХиИ╣║╗╝йЙ┐└┴┬├─┼кК╚╔╩╦╠═╬¤лЛмМнНоОп" ++
    "┘┌█▄Пя▀ЯрРсСтТуУжЖвВьЬ№\u00adыЫзЗшШэЭщЩчЧ§■\u00a0"),
  ("cp856",
    "\u05d0\u05d1\u05d2\u05d3\u05d4\u05d5\u05d6\u05d7\u05d8\u05d9\u05da\u05db\u05dc\u05dd" ++
    "\u05de\u05df\u05e0\u05e1\u05e2\u05e3\u05e4\u05e5\u05e6\u05e7\u05e8\u05e9\u05ea�£�×�������" ++
    "���®¬½¼�«»░▒▓│┤���©╣║╗╝¢¥┐└┴┬├─┼��╚╔╩╦╠═╬¤���������┘┌█▄¦�▀������µ�������¯´\u00ad±‗¾¶§÷¸°¨" ++
    "·¹³²■\u00a0"),
  ("cp857",
    "ÇüéâäàåçêëèïîıÄÅÉæÆôöòûùİÖÜø£ØŞşáíóúñÑĞğ¿®¬½¼¡«»░▒▓│┤ÁÂÀ©╣║╗╝¢¥┐└┴┬├─┼ãÃ╚╔╩╦╠═╬¤ºªÊËÈ�ÍÎÏ" ++
    "┘┌█▄¦Ì▀ÓßÔÒõÕµ�×ÚÛÙìÿ¯´\u00ad±�¾¶§÷¸°¨·¹³²■\u00a0"),
  ("cp858",
    "ÇüéâäàåçêëèïîìÄÅÉæÆôöòûùÿÖÜø£Ø×ƒáíóúñÑªº¿®¬½¼¡«»░▒▓│┤ÁÂÀ©╣║╗╝¢¥┐└┴┬├─┼ãÃ╚╔╩╦╠═╬¤ðÐÊËÈ€ÍÎÏ" ++
    "┘┌█▄¦Ì▀ÓßÔÒõÕµþÞÚÛÙýÝ¯´\u00ad±‗¾¶§÷¸°¨·¹³²■\u00a0"),
  ("cp860",
    "ÇüéâãàÁçêÊèÍÔìÃÂÉÀÈôõòÚùÌÕÜ¢£Ù₧ÓáíóúñÑªº¿Ò¬½¼¡«»░▒▓│┤╡╢╖╕╣║╗╝╜╛┐└┴┬├─┼╞╟╚╔╩╦╠═╬╧╨╤╥╙╘╒╓╫╪" ++
    "┘┌█▄▌▐▀αßΓπΣσµτΦΘΩδ∞φε∩≡±≥≤⌠⌡÷≈°∙·√ⁿ²■\u00a0"),
  ("cp861",
    "ÇüéâäàåçêëèÐðÞÄÅÉæÆôöþûÝýÖÜø£Ø₧ƒáíóúÁÍÓÚ¿⌐¬½¼¡«»░▒▓│┤╡╢╖╕╣║╗╝╜╛┐└┴┬├─┼╞╟╚╔╩╦╠═╬╧╨╤╥╙╘╒╓╫╪" ++
    "┘┌█▄▌▐▀αßΓπΣσµτΦΘΩδ∞φε∩≡±≥≤⌠⌡÷≈°∙·√ⁿ²■\u00a0"),
  ("cp862",
    "\u05d0\u05d1\u05d2\u05d3\u05d4\u05d5\u05d6\u05d7\u05d8\u05d9\u05da\u05db\u05dc\u05dd" ++
    "\u05de\u05df\u05e0\u05e1\u05e2\u05e3\u05e4\u05e5\u05e6\u05e7\u05e8\u05e9\u05ea¢£¥₧ƒáíóúñÑ" ++
    "ªº¿⌐¬½¼¡«»░▒▓│┤╡╢╖╕╣║╗╝╜╛┐└┴┬├─┼╞╟╚╔╩╦╠═╬╧╨╤╥╙╘╒╓╫╪┘┌█▄▌▐▀αßΓπΣσµτΦΘΩδ∞φε∩≡±≥≤⌠⌡÷≈°∙·√ⁿ²■" ++
    "\u00a0"),
  ("cp863",
    "ÇüéâÂà¶çêëèïî‗À§ÉÈÊôËÏûù¤ÔÜ¢£ÙÛƒ¦´óú¨¸³¯Î⌐¬½¼¾«»░▒▓│┤╡╢╖╕╣║╗╝╜╛┐└┴┬├─┼╞╟╚╔╩╦╠═╬╧╨╤╥╙╘╒╓╫╪" ++
    "┘┌█▄▌▐▀αßΓπΣσµτΦΘΩδ∞φε∩≡±≥≤⌠⌡÷≈°∙·√ⁿ²■\u00a0"),
  ("cp865",
    "ÇüéâäàåçêëèïîìÄÅÉæÆôöòûùÿÖÜø£Ø₧ƒáíóúñÑªº¿⌐¬½¼¡«¤░▒▓│┤╡╢╖╕╣║╗╝╜╛┐└┴┬├─┼╞╟╚╔╩╦╠═╬╧╨╤╥╙╘╒╓╫╪" ++
    "┘┌█▄▌▐▀αßΓπΣσµτΦΘΩδ∞φε∩≡±≥≤⌠⌡÷≈°∙·√ⁿ²■\u00a0"),
  ("cp866",
    "АБВГДЕЖЗИЙКЛМНОПРСТУФХЦЧШЩЪЫЬЭЮЯабвгдежзийклмноп░▒▓│┤╡╢╖╕╣║╗╝╜╛┐└┴┬├─┼╞╟╚╔╩╦╠═╬╧╨╤╥╙╘╒╓╫╪" ++
    "┘┌█▄▌▐▀рстуфхцчшщъыьэюяЁёЄєЇїЎў°∙·√№¤■\u00a0"),
  ("cp869",
    "������Ά�·¬¦‘’Έ―ΉΊΪΌ��ΎΫ©Ώ²³ά£έήίϊΐόύΑΒΓΔΕΖΗ½ΘΙ«»░▒▓│┤ΚΛΜΝ╣║╗╝ΞΟ┐└┴┬├─┼ΠΡ╚╔╩╦╠═╬ΣΤΥΦΧΨΩαβγ" ++
    "┘┌█▄δε▀ζηθικλμνξοπρσςτ΄\u00ad±υφχ§ψ΅°¨ωϋΰώ■\u00a0"),
  ("cp874",
    "€����…�����������‘’“”•–—��������\u00a0กขฃคฅฆงจฉชซฌญฎฏฐฑฒณดตถทธนบปผฝพฟภมยรฤลฦวศษสหฬอฮฯะ" ++
    "\u0e31าำ\u0e34\u0e35\u0e36\u0e37\u0e38\u0e39\u0e3a����฿เแโใไๅๆ\u0e47\u0e48\u0e49\u0e4a" ++
    "\u0e4b\u0e4c\u0e4d\u0e4e๏๐๑๒๓๔๕๖๗๘๙๚๛����"),
  ("hp_roman8",
    "\u0080\u0081\u0082\u0083\u0084\u0085\u0086\u0087\u0088\u0089\u008a\u008b\u008c\u008d" ++
    "\u008e\u008f\u0090\u0091\u0092\u0093\u0094\u0095\u0096\u0097\u0098\u0099\u009a\u009b" ++
    "\u009c\u009d\u009e\u009f\u00a0ÀÂÈÊËÎÏ´ˋˆ¨˜ÙÛ₤¯Ýý°ÇçÑñ¡¿¤£¥§ƒ¢âêôûáéóúàèòùäëöüÅîØÆåíøæÄìÖÜ" ++
    "ÉïßÔÁÃãÐðÍÌÓÒÕõŠšÚŸÿÞþ·µ¶¾—¼½ªº«■»±�"),
  ("iso8859_10",
    "\u0080\u0081\u0082\u0083\u0084\u0085\u0086\u0087\u0088\u0089\u008a\u008b\u008c\u008d" ++
    "\u008e\u008f\u0090\u0091\u0092\u0093\u0094\u0095\u0096\u0097\u0098\u0099\u009a\u009b" ++
    "\u009c\u009d\u009e\u009f\u00a0ĄĒĢĪĨĶ§ĻĐŠŦŽ\u00adŪŊ°ąēģīĩķ·ļđšŧž―ūŋĀÁÂÃÄÅÆĮČÉĘËĖÍÎÏÐŅŌÓÔÕÖ" ++
    "ŨØŲÚÛÜÝÞßāáâãäåæįčéęëėíîïðņōóôõöũøųúûüýþĸ"),
  ("iso8859_11",
    "\u0080\u0081\u0082\u0083\u0084\u0085\u0086\u0087\u0088\u0089\u008a\u008b\u008c\u008d" ++
    "\u008e\u008f\u0090\u0091\u0092\u0093\u0094\u0095\u0096\u0097\u0098\u0099\u009a\u009b" ++
    "\u009c\u009d\u009e\u009f\u00a0กขฃคฅฆงจฉชซฌญฎฏฐฑฒณดตถทธนบปผฝพฟภมยรฤลฦวศษสหฬอฮฯะ\u0e31าำ" ++
    "\u0e34\u0e35\u0e36\u0e37\u0e38\u0e39\u0e3a����฿เแโใไๅๆ\u0e47\u0e48\u0e49\u0e4a\u0e4b" ++
    "\u0e4c\u0e4d\u0e4e๏๐๑๒๓๔๕๖๗๘๙๚๛����"),
  ("iso8859_13",
    "\u0080\u0081\u0082\u0083\u0084\u0085\u0086\u0087\u0088\u0089\u008a\u008b\u008c\u008d" ++
    "\u008e\u008f\u0090\u0091\u0092\u0093\u0094\u0095\u0096\u0097\u0098\u0099\u009a\u009b" ++
    "\u009c\u009d\u009e\u009f\u00a0”¢£¤„¦§Ø©Ŗ«¬\u00ad®Æ°±²³“µ¶·ø¹ŗ»¼½¾æĄĮĀĆÄÅĘĒČÉŹĖĢĶĪĻŠŃŅÓŌÕÖ" ++
    "×ŲŁŚŪÜŻŽßąįāćäåęēčéźėģķīļšńņóōõö÷ųłśūüżž’"),
  ("iso8859_14",
    "\u0080\u0081\u0082\u0083\u0084\u0085\u0086\u0087\u0088\u0089\u008a\u008b\u008c\u008d" ++
    "\u008e\u008f\u0090\u0091\u0092\u0093\u0094\u0095\u0096\u0097\u0098\u0099\u009a\u009b" ++
    "\u009c\u009d\u009e\u009f\u00a0Ḃḃ£ĊċḊ§Ẁ©ẂḋỲ\u00ad®ŸḞḟĠġṀṁ¶ṖẁṗẃṠỳẄẅṡÀÁÂÃÄÅÆÇÈÉÊËÌÍÎÏŴÑÒÓÔÕÖ" ++
    "ṪØÙÚÛÜÝŶßàáâãäåæçèéêëìíîïŵñòóôõöṫøùúûüýŷÿ"),
  ("iso8859_15",
    "\u0080\u0081\u0082\u0083\u0084\u0085\u0086\u0087\u0088\u0089\u008a\u008b\u008c\u008d" ++
    "\u008e\u008f\u0090\u0091\u0092\u0093\u0094\u0095\u0096\u0097\u0098\u0099\u009a\u009b" ++
    "\u009c\u009d\u009e\u009f\u00a0¡¢£€¥Š§š©ª«¬\u00ad®¯°±²³Žµ¶·ž¹º»ŒœŸ¿ÀÁÂÃÄÅÆÇÈÉÊËÌÍÎÏÐÑÒÓÔÕÖ" ++
    "×ØÙÚÛÜÝÞßàáâãäåæçèéêëìíîïðñòóôõö÷øùúûüýþÿ"),
  ("iso8859_16",
    "\u0080\u0081\u0082\u0083\u0084\u0085\u0086\u0087\u0088\u0089\u008a\u008b\u008c\u008d" ++
    "\u008e\u008f\u0090\u0091\u0092\u0093\u0094\u0095\u0096\u0097\u0098\u0099\u009a\u009b" ++
    "\u009c\u009d\u009e\u009f\u00a0ĄąŁ€„Š§š©Ș«Ź\u00adźŻ°±ČłŽ”¶·žčș»ŒœŸżÀÁÂĂÄĆÆÇÈÉÊËÌÍÎÏĐŃÒÓÔŐÖ" ++
    "ŚŰÙÚÛÜĘȚßàáâăäćæçèéêëìíîïđńòóôőöśűùúûüęțÿ"),
  ("iso8859_2",
    "\u0080\u0081\u0082\u0083\u0084\u0085\u0086\u0087\u0088\u0089\u008a\u008b\u008c\u008d" ++
    "\u008e\u008f\u0090\u0091\u0092\u0093\u0094\u0095\u0096\u0097\u0098\u0099\u009a\u009b" ++
    "\u009c\u009d\u009e\u009f\u00a0Ą˘Ł¤ĽŚ§¨ŠŞŤŹ\u00adŽŻ°ą˛ł´ľśˇ¸šşťź˝žżŔÁÂĂÄĹĆÇČÉĘËĚÍÎĎĐŃŇÓÔŐÖ" ++
    "×ŘŮÚŰÜÝŢßŕáâăäĺćçčéęëěíîďđńňóôőö÷řůúűüýţ˙"),
  ("iso8859_3",
    "\u0080\u0081\u0082\u0083\u0084\u0085\u0086\u0087\u0088\u0089\u008a\u008b\u008c\u008d" ++
    "\u008e\u008f\u0090\u0091\u0092\u0093\u0094\u0095\u0096\u0097\u0098\u0099\u009a\u009b" ++
    "\u009c\u009d\u009e\u009f\u00a0Ħ˘£¤�Ĥ§¨İŞĞĴ\u00ad�Ż°ħ²³´µĥ·¸ışğĵ½�żÀÁÂ�ÄĊĈÇÈÉÊËÌÍÎÏ�ÑÒÓÔĠÖ" ++
    "×ĜÙÚÛÜŬŜßàáâ�äċĉçèéêëìíîï�ñòóôġö÷ĝùúûüŭŝ˙"),
  ("iso8859_4",
    "\u0080\u0081\u0082\u0083\u0084\u0085\u0086\u0087\u0088\u0089\u008a\u008b\u008c\u008d" ++
    "\u008e\u008f\u0090\u0091\u0092\u0093\u0094\u0095\u0096\u0097\u0098\u0099\u009a\u009b" ++
    "\u009c\u009d\u009e\u009f\u00a0ĄĸŖ¤ĨĻ§¨ŠĒĢŦ\u00adŽ¯°ą˛ŗ´ĩļˇ¸šēģŧŊžŋĀÁÂÃÄÅÆĮČÉĘËĖÍÎĪĐŅŌĶÔÕÖ" ++
    "×ØŲÚÛÜŨŪßāáâãäåæįčéęëėíîīđņōķôõö÷øųúûüũū˙"),
  ("iso8859_5",
    "\u0080\u0081\u0082\u0083\u0084\u0085\u0086\u0087\u0088\u0089\u008a\u008b\u008c\u008d" ++
    "\u008e\u008f\u0090\u0091\u0092\u0093\u0094\u0095\u0096\u0097\u0098\u0099\u009a\u009b" ++
    "\u009c\u009d\u009e\u009f\u00a0ЁЂЃЄЅІЇЈЉЊЋЌ\u00adЎЏАБВГДЕЖЗИЙКЛМНОПРСТУФХЦЧШЩЪЫЬЭЮЯабвгдеж" ++
    "зийклмнопрстуфхцчшщъыьэюя№ёђѓєѕіїјљњћќ§ўџ"),
  ("iso8859_6",
    "\u0080\u0081\u0082\u0083\u0084\u0085\u0086\u0087\u0088\u0089\u008a\u008b\u008c\u008d" ++
    "\u008e\u008f\u0090\u0091\u0092\u0093\u0094\u0095\u0096\u0097\u0098\u0099\u009a\u009b" ++
    "\u009c\u009d\u009e\u009f\u00a0���¤�������،\u00ad�������������\u061b���\u061f�\u0621\u0622" ++
    "\u0623\u0624\u0625\u0626\u0627\u0628\u0629\u062a\u062b\u062c\u062d\u062e\u062f\u0630" ++
    "\u0631\u0632\u0633\u0634\u0635\u0636\u0637\u0638\u0639\u063a�����\u0640\u0641\u0642\u0643" ++
    "\u0644\u0645\u0646\u0647\u0648\u0649\u064a\u064b\u064c\u064d\u064e\u064f\u0650\u0651" ++
    "\u0652�������������"),
  ("iso8859_7",
    "\u0080\u0081\u0082\u0083\u0084\u0085\u0086\u0087\u0088\u0089\u008a\u008b\u008c\u008d" ++
    "\u008e\u008f\u0090\u0091\u0092\u0093\u0094\u0095\u0096\u0097\u0098\u0099\u009a\u009b" ++
    "\u009c\u009d\u009e\u009f\u00a0‘’£€₯¦§¨©ͺ«¬\u00ad�―°±²³΄΅Ά·ΈΉΊ»Ό½ΎΏΐΑΒΓΔΕΖΗΘΙΚΛΜΝΞΟΠΡ�ΣΤΥΦ" ++
    "ΧΨΩΪΫάέήίΰαβγδεζηθικλμνξοπρςστυφχψωϊϋόύώ�"),
  ("iso8859_8",
    "\u0080\u0081\u0082\u0083\u0084\u0085\u0086\u0087\u0088\u0089\u008a\u008b\u008c\u008d" ++
    "\u008e\u008f\u0090\u0091\u0092\u0093\u0094\u0095\u0096\u0097\u0098\u0099\u009a\u009b" ++
    "\u009c\u009d\u009e\u009f\u00a0�¢£¤¥¦§¨©×«¬\u00ad®¯°±²³´µ¶·¸¹÷»¼½¾������������������������" ++
    "��������‗\u05d0\u05d1\u05d2\u05d3\u05d4\u05d5\u05d6\u05d7\u05d8\u05d9\u05da\u05db\u05dc" ++
    "\u05dd\u05de\u05df\u05e0\u05e1\u05e2\u05e3\u05e4\u05e5\u05e6\u05e7\u05e8\u05e9\u05ea��" ++
    "\u200e\u200f�"),
  ("iso8859_9",
    "\u0080\u0081\u0082\u0083\u0084\u0085\u0086\u0087\u0088\u0089\u008a\u008b\u008c\u008d" ++
    "\u008e\u008f\u0090\u0091\u0092\u0093\u0094\u0095\u0096\u0097\u0098\u0099\u009a\u009b" ++
    "\u009c\u009d\u009e\u009f\u00a0¡¢£¤¥¦§¨©ª«¬\u00ad®¯°±²³´µ¶·¸¹º»¼½¾¿ÀÁÂÃÄÅÆÇÈÉÊËÌÍÎÏĞÑÒÓÔÕÖ" ++
    "×ØÙÚÛÜİŞßàáâãäåæçèéêëìíîïğñòóôõö÷øùúûüışÿ"),
  ("koi8_r",
    "─│┌┐└┘├┤┬┴┼▀▄█▌▐░▒▓⌠■∙√≈≤≥\u00a0⌡°²·÷═║╒ё╓╔╕╖╗╘╙╚╛╜╝╞╟╠╡Ё╢╣╤╥╦╧╨╩╪╫╬©юабцдефгхийклмнопярс" ++
    "тужвьызшэщчъЮАБЦДЕФГХИЙКЛМНОПЯРСТУЖВЬЫЗШЭЩЧЪ"),
  ("koi8_t",
    "қғ‚Ғ„…†‡�‰ҳ‹ҲҷҶ�Қ‘’“”•–—�™�›�����ӯӮё¤ӣ¦§���«¬\u00ad®�°±²Ё�Ӣ¶·�№�»���©юабцдефгхийклмнопярс" ++
    "тужвьызшэщчъЮАБЦДЕФГХИЙКЛМНОПЯРСТУЖВЬЫЗШЭЩЧЪ"),
  ("koi8_u",
    "─│┌┐└┘├┤┬┴┼▀▄█▌▐░▒▓⌠■∙√≈≤≥\u00a0⌡°²·÷═║╒ёє╔ії╗╘╙╚╛ґ╝╞╟╠╡ЁЄ╣ІЇ╦╧╨╩╪Ґ╬©юабцдефгхийклмнопярс" ++
    "тужвьызшэщчъЮАБЦДЕФГХИЙКЛМНОПЯРСТУЖВЬЫЗШЭЩЧЪ"),
  ("kz1048",
    "ЂЃ‚ѓ„…†‡€‰Љ‹ЊҚҺЏђ‘’“”•–—�™љ›њқһџ\u00a0ҰұӘ¤Ө¦§Ё©Ғ«¬\u00ad®Ү°±Ііөµ¶·ё№ғ»әҢңүАБВГДЕЖЗИЙКЛМНО" ++
    "ПРСТУФХЦЧШЩЪЫЬЭЮЯабвгдежзийклмнопрстуфхцчшщъыьэюя"),
  ("mac_croatian",
    "ÄÅÇÉÑÖÜáàâäãåçéèêëíìîïñóòôöõúùûü†°¢£§•¶ß®Š™´¨≠ŽØ∞±≤≥∆µ∂∑∏š∫ªºΩžø¿¡¬√ƒ≈Ć«Č…\u00a0ÀÃÕŒœĐ—“”" ++
    "‘’÷◊\uf8ff©⁄€‹›Æ»–·‚„‰ÂćÁčÈÍÎÏÌÓÔđÒÚÛÙıˆ˜¯πË˚¸Êæˇ"),
  ("mac_cyrillic",
    "АБВГДЕЖЗИЙКЛМНОПРСТУФХЦЧШЩЪЫЬЭЮЯ†°Ґ£§•¶І®©™Ђђ≠Ѓѓ∞±≤≥іµґЈЄєЇїЉљЊњјЅ¬√ƒ≈∆«»…\u00a0ЋћЌќѕ–—“”" ++
    "‘’÷„ЎўЏџ№Ёёяабвгдежзийклмнопрстуфхцчшщъыьэю€"),
  ("mac_greek",
    "Ä¹²É³ÖÜ΅àâä΄¨çéèêë£™îï•½‰ôö¦€ùûü†ΓΔΘΛΞΠß®©ΣΪ§≠°·Α±≤≥¥ΒΕΖΗΙΚΜΦΫΨΩάΝ¬ΟΡ≈Τ«»…\u00a0ΥΧΆΈœ–―“”" ++
    "‘’÷ΉΊΌΎέήίόΏύαβψδεφγηιξκλμνοπώρστθωςχυζϊϋΐΰ\u00ad"),
  ("mac_iceland",
    "ÄÅÇÉÑÖÜáàâäãåçéèêëíìîïñóòôöõúùûüÝ°¢£§•¶ß®©™´¨≠ÆØ∞±≤≥¥µ∂∑∏π∫ªºΩæø¿¡¬√ƒ≈∆«»…\u00a0ÀÃÕŒœ–—“”" ++
    "‘’÷◊ÿŸ⁄€ÐðÞþý·‚„‰ÂÊÁËÈÍÎÏÌÓÔ\uf8ffÒÚÛÙıˆ˜¯˘˙˚¸˝˛ˇ"),
  ("mac_latin2",
    "ÄĀāÉĄÖÜáąČäčĆćéŹźĎíďĒēĖóėôöõúĚěü†°Ę£§•¶ß®©™ę¨≠ģĮįĪ≤≥īĶ∂∑łĻļĽľĹĺŅņŃ¬√ńŇ∆«»…\u00a0ňŐÕőŌ–—“”" ++
    "‘’÷◊ōŔŕŘ‹›řŖŗŠ‚„šŚśÁŤťÍŽžŪÓÔūŮÚůŰűŲųÝýķŻŁżĢˇ"),
  ("mac_roman",
    "ÄÅÇÉÑÖÜáàâäãåçéèêëíìîïñóòôöõúùûü†°¢£§•¶ß®©™´¨≠ÆØ∞±≤≥¥µ∂∑∏π∫ªºΩæø¿¡¬√ƒ≈∆«»…\u00a0ÀÃÕŒœ–—“”" ++
    "‘’÷◊ÿŸ⁄€‹›ﬁﬂ‡·‚„‰ÂÊÁËÈÍÎÏÌÓÔ\uf8ffÒÚÛÙıˆ˜¯˘˙˚¸˝˛ˇ"),
  ("mac_romanian",
    "ÄÅÇÉÑÖÜáàâäãåçéèêëíìîïñóòôöõúùûü†°¢£§•¶ß®©™´¨≠ĂȘ∞±≤≥¥µ∂∑∏π∫ªºΩăș¿¡¬√ƒ≈∆«»…\u00a0ÀÃÕŒœ–—“”" ++
    "‘’÷◊ÿŸ⁄€‹›Țț‡·‚„‰ÂÊÁËÈÍÎÏÌÓÔ\uf8ffÒÚÛÙıˆ˜¯˘˙˚¸˝˛ˇ"),
  ("mac_turkish",
    "ÄÅÇÉÑÖÜáàâäãåçéèêëíìîïñóòôöõúùûü†°¢£§•¶ß®©™´¨≠ÆØ∞±≤≥¥µ∂∑∏π∫ªºΩæø¿¡¬√ƒ≈∆«»…\u00a0ÀÃÕŒœ–—“”" ++
    "‘’÷◊ÿŸĞğİıŞş‡·‚„‰ÂÊÁËÈÍÎÏÌÓÔ\uf8ffÒÚÛÙ\uf8a0ˆ˜¯˘˙˚¸˝˛ˇ"),
  ("palmos",
    "€\u0081‚ƒ„…†‡ˆ‰Š‹Œ♦♣♥♠‘’“”•–—˜™š\u009bœ\u009d\u009eŸ\u00a0¡¢£¤¥¦§¨©ª«¬\u00ad®¯°±²³´µ¶·¸¹º" ++
    "»¼½¾¿ÀÁÂÃÄÅÆÇÈÉÊËÌÍÎÏÐÑÒÓÔÕÖ×ØÙÚÛÜÝÞßàáâãäåæçèéêëìíîïðñòóôõö÷øùúûüýþÿ"),
  ("ptcp154",
    "ҖҒӮғ„…ҶҮҲүҠӢҢҚҺҸҗ‘’“”•–—ҳҷҡӣңқһҹ\u00a0ЎўЈӨҘҰ§Ё©Ә«¬ӯ®Ҝ°ұІіҙө¶·ё№ә»јҪҫҝАБВГДЕЖЗИЙКЛМНОПРСТУ" ++
    "ФХЦЧШЩЪЫЬЭЮЯабвгдежзийклмнопрстуфхцчшщъыьэюя"),
  ("tis_620",
    "\u0080\u0081\u0082\u0083\u0084\u0085\u0086\u0087\u0088\u0089\u008a\u008b\u008c\u008d" ++
    "\u008e\u008f\u0090\u0091\u0092\u0093\u0094\u0095\u0096\u0097\u0098\u0099\u009a\u009b" ++
    "\u009c\u009d\u009e\u009f�กขฃคฅฆงจฉชซฌญฎฏฐฑฒณดตถทธนบปผฝพฟภมยรฤลฦวศษสหฬอฮฯะ\u0e31าำ\u0e34" ++
    "\u0e35\u0e36\u0e37\u0e38\u0e39\u0e3a����฿เแโใไๅๆ\u0e47\u0e48\u0e49\u0e4a\u0e4b\u0e4c" ++
    "\u0e4d\u0e4e๏๐๑๒๓๔๕๖๗๘๙๚๛����")
]

/-- The encodings that have ASCII only, as far as bytes go one by one. -/
def asciiEncodings : List String := [
  "ascii", "iso2022_jp", "iso2022_jp_1", "iso2022_jp_2", "iso2022_jp_2004", "iso2022_jp_3",
  "iso2022_jp_ext", "utf_8", "utf_8_sig"
]

/-- The encodings that have the first 256 characters. -/
def latinEncodings : List String := [
  "charmap", "iso8859_1", "latin_1", "raw_unicode_escape", "unicode_escape"
]

/-! ## Encodings that are not read -/

/-- Encodings with more than one byte for a character. -/
def multiByteEncodings : List String := [
  "big5", "big5hkscs", "cp932", "cp949", "cp950", "euc_jis_2004", "euc_jisx0213", "euc_jp",
  "euc_kr", "gb18030", "gb2312", "gbk", "iso2022_kr", "johab", "shift_jis", "shift_jis_2004",
  "shift_jisx0213", "utf_16", "utf_16_be", "utf_16_le", "utf_32", "utf_32_be", "utf_32_le",
  "utf_7"
]

/-- Encodings that do not have the characters of markup where ASCII has them, and nowhere else. -/
def foreignEncodings : List String := [
  "cp037", "cp1026", "cp1140", "cp273", "cp424", "cp500", "cp864", "cp875", "mac_arabic",
  "mac_farsi"
]

/-- Encodings of other things than text. -/
def nonTextEncodings : List String := [
  "base64_codec", "bz2_codec", "hex_codec", "quopri_codec", "rot_13", "uu_codec", "zlib_codec"
]

/-! ## Names -/

/-- Other names of encodings. -/
def encodingAliases : List (String × String) := [
  ("037", "cp037"), ("1026", "cp1026"), ("1125", "cp1125"), ("1140", "cp1140"),
  ("1250", "cp1250"), ("1251", "cp1251"), ("1252", "cp1252"), ("1253", "cp1253"),
  ("1254", "cp1254"), ("1255", "cp1255"), ("1256", "cp1256"), ("1257", "cp1257"),
  ("1258", "cp1258"), ("273", "cp273"), ("424", "cp424"), ("437", "cp437"), ("500", "cp500"),
  ("646", "ascii"), ("775", "cp775"), ("850", "cp850"), ("852", "cp852"), ("855", "cp855"),
  ("857", "cp857"), ("858", "cp858"), ("860", "cp860"), ("861", "cp861"), ("862", "cp862"),
  ("863", "cp863"), ("864", "cp864"), ("865", "cp865"), ("866", "cp866"), ("869", "cp869"),
  ("8859", "latin_1"), ("932", "cp932"), ("936", "gbk"), ("949", "cp949"), ("950", "cp950"),
  ("ansi_x3.4_1968", "ascii"), ("ansi_x3.4_1986", "ascii"), ("ansi_x3_4_1968", "ascii"),
  ("arabic", "iso8859_6"), ("asmo_708", "iso8859_6"), ("base64", "base64_codec"),
  ("base_64", "base64_codec"), ("big5_hkscs", "big5hkscs"), ("big5_tw", "big5"),
  ("bz2", "bz2_codec"), ("chinese", "gb2312"), ("cp1051", "hp_roman8"), ("cp1361", "johab"),
  ("cp154", "ptcp154"), ("cp367", "ascii"), ("cp65001", "utf_8"), ("cp819", "latin_1"),
  ("cp866u", "cp1125"), ("cp936", "gbk"), ("cp_gr", "cp869"), ("cp_is", "cp861"),
  ("csascii", "ascii"), ("csbig5", "big5"), ("csibm037", "cp037"), ("csibm1026", "cp1026"),
  ("csibm273", "cp273"), ("csibm424", "cp424"), ("csibm500", "cp500"), ("csibm855", "cp855"),
  ("csibm857", "cp857"), ("csibm858", "cp858"), ("csibm860", "cp860"), ("csibm861", "cp861"),
  ("csibm863", "cp863"), ("csibm864", "cp864"), ("csibm865", "cp865"), ("csibm866", "cp866"),
  ("csibm869", "cp869"), ("csiso2022jp", "iso2022_jp"), ("csiso2022kr", "iso2022_kr"),
  ("csiso58gb231280", "gb2312"), ("csisolatin1", "latin_1"), ("csisolatin2", "iso8859_2"),
  ("csisolatin3", "iso8859_3"), ("csisolatin4", "iso8859_4"), ("csisolatin5", "iso8859_9"),
  ("csisolatin6", "iso8859_10"), ("csisolatinarabic", "iso8859_6"),
  ("csisolatincyrillic", "iso8859_5"), ("csisolatingreek", "iso8859_7"),
  ("csisolatinhebrew", "iso8859_8"), ("cskoi8r", "koi8_r"), ("cspc775baltic", "cp775"),
  ("cspc850multilingual", "cp850"), ("cspc862latinhebrew", "cp862"),
  ("cspc8codepage437", "cp437"), ("cspcp852", "cp852"), ("csptcp154", "ptcp154"),
  ("csshiftjis", "shift_jis"), ("cyrillic", "iso8859_5"), ("cyrillic_asian", "ptcp154"),
  ("ebcdic_cp_be", "cp500"), ("ebcdic_cp_ca", "cp037"), ("ebcdic_cp_ch", "cp500"),
  ("ebcdic_cp_he", "cp424"), ("ebcdic_cp_nl", "cp037"), ("ebcdic_cp_us", "cp037"),
  ("ebcdic_cp_wt", "cp037"), ("ecma_114", "iso8859_6"), ("ecma_118", "iso8859_7"),
  ("elot_928", "iso8859_7"), ("euc_cn", "gb2312"), ("euc_jis2004", "euc_jis_2004"),
  ("euccn", "gb2312"), ("eucgb2312_cn", "gb2312"), ("eucjis2004", "euc_jis_2004"),
  ("eucjisx0213", "euc_jisx0213"), ("eucjp", "euc_jp"), ("euckr", "euc_kr"),
  ("gb18030_2000", "gb18030"), ("gb2312_1980", "gb2312"), ("gb2312_80", "gb2312"),
  ("greek", "iso8859_7"), ("greek8", "iso8859_7"), ("hebrew", "iso8859_8"), ("hex", "hex_codec"),
  ("hkscs", "big5hkscs"), ("hz_gb", "hz"), ("hz_gb_2312", "hz"), ("hzgb", "hz"),
  ("ibm037", "cp037"), ("ibm039", "cp037"), ("ibm1026", "cp1026"), ("ibm1051", "hp_roman8"),
  ("ibm1125", "cp1125"), ("ibm1140", "cp1140"), ("ibm273", "cp273"), ("ibm367", "ascii"),
  ("ibm424", "cp424"), ("ibm437", "cp437"), ("ibm500", "cp500"), ("ibm775", "cp775"),
  ("ibm819", "latin_1"), ("ibm850", "cp850"), ("ibm852", "cp852"), ("ibm855", "cp855"),
  ("ibm857", "cp857"), ("ibm858", "cp858"), ("ibm860", "cp860"), ("ibm861", "cp861"),
  ("ibm862", "cp862"), ("ibm863", "cp863"), ("ibm864", "cp864"), ("ibm865", "cp865"),
  ("ibm866", "cp866"), ("ibm869", "cp869"), ("iso2022jp", "iso2022_jp"),
  ("iso2022jp_1", "iso2022_jp_1"), ("iso2022jp_2", "iso2022_jp_2"),
  ("iso2022jp_2004", "iso2022_jp_2004"), ("iso2022jp_3", "iso2022_jp_3"),
  ("iso2022jp_ext", "iso2022_jp_ext"), ("iso2022kr", "iso2022_kr"), ("iso646_us", "ascii"),
  ("iso8859", "latin_1"), ("iso8859_1", "latin_1"), ("iso_2022_jp", "iso2022_jp"),
  ("iso_2022_jp_1", "iso2022_jp_1"), ("iso_2022_jp_2", "iso2022_jp_2"),
  ("iso_2022_jp_2004", "iso2022_jp_2004"), ("iso_2022_jp_3", "iso2022_jp_3"),
  ("iso_2022_jp_ext", "iso2022_jp_ext"), ("iso_2022_kr", "iso2022_kr"),
  ("iso_646.irv_1991", "ascii"), ("iso_8859_1", "latin_1"), ("iso_8859_10", "iso8859_10"),
  ("iso_8859_10_1992", "iso8859_10"), ("iso_8859_11", "iso8859_11"),
  ("iso_8859_11_2001", "iso8859_11"), ("iso_8859_13", "iso8859_13"),
  ("iso_8859_14", "iso8859_14"), ("iso_8859_14_1998", "iso8859_14"),
  ("iso_8859_15", "iso8859_15"), ("iso_8859_16", "iso8859_16"),
  ("iso_8859_16_2001", "iso8859_16"), ("iso_8859_1_1987", "latin_1"),
  ("iso_8859_2", "iso8859_2"), ("iso_8859_2_1987", "iso8859_2"), ("iso_8859_3", "iso8859_3"),
  ("iso_8859_3_1988", "iso8859_3"), ("iso_8859_4", "iso8859_4"),
  ("iso_8859_4_1988", "iso8859_4"), ("iso_8859_5", "iso8859_5"),
  ("iso_8859_5_1988", "iso8859_5"), ("iso_8859_6", "iso8859_6"),
  ("iso_8859_6_1987", "iso8859_6"), ("iso_8859_7", "iso8859_7"),
  ("iso_8859_7_1987", "iso8859_7"), ("iso_8859_8", "iso8859_8"),
  ("iso_8859_8_1988", "iso8859_8"), ("iso_8859_9", "iso8859_9"),
  ("iso_8859_9_1989", "iso8859_9"), ("iso_celtic", "iso8859_14"), ("iso_ir_100", "latin_1"),
  ("iso_ir_101", "iso8859_2"), ("iso_ir_109", "iso8859_3"), ("iso_ir_110", "iso8859_4"),
  ("iso_ir_126", "iso8859_7"), ("iso_ir_127", "iso8859_6"), ("iso_ir_138", "iso8859_8"),
  ("iso_ir_144", "iso8859_5"), ("iso_ir_148", "iso8859_9"), ("iso_ir_157", "iso8859_10"),
  ("iso_ir_166", "tis_620"), ("iso_ir_199", "iso8859_14"), ("iso_ir_226", "iso8859_16"),
  ("iso_ir_58", "gb2312"), ("iso_ir_6", "ascii"), ("jisx0213", "euc_jis_2004"),
  ("korean", "euc_kr"), ("ks_c_5601", "euc_kr"), ("ks_c_5601_1987", "euc_kr"),
  ("ks_x_1001", "euc_kr"), ("ksc5601", "euc_kr"), ("ksx1001", "euc_kr"), ("kz_1048", "kz1048"),
  ("l1", "latin_1"), ("l10", "iso8859_16"), ("l2", "iso8859_2"), ("l3", "iso8859_3"),
  ("l4", "iso8859_4"), ("l5", "iso8859_9"), ("l6", "iso8859_10"), ("l7", "iso8859_13"),
  ("l8", "iso8859_14"), ("l9", "iso8859_15"), ("latin", "latin_1"), ("latin1", "latin_1"),
  ("latin10", "iso8859_16"), ("latin2", "iso8859_2"), ("latin3", "iso8859_3"),
  ("latin4", "iso8859_4"), ("latin5", "iso8859_9"), ("latin6", "iso8859_10"),
  ("latin7", "iso8859_13"), ("latin8", "iso8859_14"), ("latin9", "iso8859_15"),
  ("mac_centeuro", "mac_latin2"), ("maccentraleurope", "mac_latin2"),
  ("maccyrillic", "mac_cyrillic"), ("macgreek", "mac_greek"), ("maciceland", "mac_iceland"),
  ("macintosh", "mac_roman"), ("maclatin2", "mac_latin2"), ("macroman", "mac_roman"),
  ("macturkish", "mac_turkish"), ("ms1361", "johab"), ("ms932", "cp932"), ("ms936", "gbk"),
  ("ms949", "cp949"), ("ms950", "cp950"), ("ms_kanji", "cp932"), ("mskanji", "cp932"),
  ("pt154", "ptcp154"), ("quopri", "quopri_codec"), ("quoted_printable", "quopri_codec"),
  ("quotedprintable", "quopri_codec"), ("r8", "hp_roman8"), ("rk1048", "kz1048"),
  ("roman8", "hp_roman8"), ("rot13", "rot_13"), ("ruscii", "cp1125"), ("s_jis", "shift_jis"),
  ("s_jis_2004", "shift_jis_2004"), ("s_jisx0213", "shift_jisx0213"), ("shiftjis", "shift_jis"),
  ("shiftjis2004", "shift_jis_2004"), ("shiftjisx0213", "shift_jisx0213"), ("sjis", "shift_jis"),
  ("sjis_2004", "shift_jis_2004"), ("sjisx0213", "shift_jisx0213"), ("strk1048_2002", "kz1048"),
  ("thai", "iso8859_11"), ("tis620", "tis_620"), ("tis_620_0", "tis_620"),
  ("tis_620_2529_0", "tis_620"), ("tis_620_2529_1", "tis_620"), ("u16", "utf_16"),
  ("u32", "utf_32"), ("u7", "utf_7"), ("u8", "utf_8"), ("u_jis", "euc_jp"), ("uhc", "cp949"),
  ("ujis", "euc_jp"), ("unicode_1_1_utf_7", "utf_7"), ("unicodebigunmarked", "utf_16_be"),
  ("unicodelittleunmarked", "utf_16_le"), ("us", "ascii"), ("us_ascii", "ascii"),
  ("utf", "utf_8"), ("utf16", "utf_16"), ("utf32", "utf_32"), ("utf7", "utf_7"),
  ("utf8", "utf_8"), ("utf8_ucs2", "utf_8"), ("utf8_ucs4", "utf_8"), ("utf_16be", "utf_16_be"),
  ("utf_16le", "utf_16_le"), ("utf_32be", "utf_32_be"), ("utf_32le", "utf_32_le"),
  ("uu", "uu_codec"), ("windows_1250", "cp1250"), ("windows_1251", "cp1251"),
  ("windows_1252", "cp1252"), ("windows_1253", "cp1253"), ("windows_1254", "cp1254"),
  ("windows_1255", "cp1255"), ("windows_1256", "cp1256"), ("windows_1257", "cp1257"),
  ("windows_1258", "cp1258"), ("x_mac_japanese", "shift_jis"), ("x_mac_korean", "euc_kr"),
  ("x_mac_simp_chinese", "gb2312"), ("x_mac_trad_chinese", "big5"), ("zip", "zlib_codec"),
  ("zlib", "zlib_codec")
]

/-- A name of an encoding in the form in which encodings are named. -/
def encodingForm (name : String) : String :=
  let step (acc : List Char × Bool) (c : Char) : List Char × Bool :=
    if c.isAlphanum || c == '.' then
      ((c.toLower :: (if acc.2 && !acc.1.isEmpty then '_' :: acc.1 else acc.1)), false)
    else (acc.1, true)
  String.ofList (name.toList.foldl step ([], false)).1.reverse

/-- **The encoding that a name leads to**; no encoding has a dot in its own name. -/
def encodingNamed? (name : String) : Option String :=
  let form := encodingForm name
  let plain := form.map fun c => if c == '.' then '_' else c
  ((encodingAliases.lookup form).or (encodingAliases.lookup plain)).or
    (if form.toList.contains '.' then none else some form)

end StationNaming.Xml
