/-!
# Keywords of the Macintosh format

Keywords are written as one byte, or as one of four lead bytes and a second byte.
-/

namespace SavedBasic.Mac

/-- The keywords of one byte; digits have bytes of their own as well. -/
def keywords : List (Nat × String) :=
  [(0x11, "0"), (0x12, "1"), (0x13, "2"), (0x14, "3"), (0x15, "4"), (0x16, "5"), (0x17, "6"),
   (0x18, "7"), (0x19, "8"), (0x1A, "9"), (0x80, "ABS"), (0x81, "ASC"), (0x82, "ATN"),
   (0x83, "CALL"), (0x84, "CDBL"), (0x85, "CHR$"), (0x86, "CINT"), (0x87, "CLOSE"),
   (0x88, "COMMON"), (0x89, "COS"), (0x8A, "CVD"), (0x8B, "CVI"), (0x8C, "CVS"), (0x8D, "DATA"),
   (0x8E, "ELSE"), (0x8F, "EOF"), (0x90, "EXP"), (0x91, "FIELD"), (0x92, "FIX"), (0x93, "FN"),
   (0x94, "FOR"), (0x95, "GET"), (0x96, "GOSUB"), (0x97, "GOTO"), (0x98, "IF"), (0x99, "INKEY$"),
   (0x9A, "INPUT"), (0x9B, "INT"), (0x9C, "LEFT$"), (0x9D, "LEN"), (0x9E, "LET"), (0x9F, "LINE"),
   (0xA1, "LOC"), (0xA2, "LOF"), (0xA3, "LOG"), (0xA4, "LSET"), (0xA5, "MID$"), (0xA6, "MKD$"),
   (0xA7, "MKI$"), (0xA8, "MKS$"), (0xA9, "NEXT"), (0xAA, "ON"), (0xAB, "OPEN"), (0xAC, "PRINT"),
   (0xAD, "PUT"), (0xAE, "READ"), (0xAF, "REM"), (0xB0, "RETURN"), (0xB1, "RIGHT$"), (0xB2, "RND"),
   (0xB3, "RSET"), (0xB4, "SGN"), (0xB5, "SIN"), (0xB6, "SPACE$"), (0xB7, "SQR"), (0xB8, "STR$"),
   (0xB9, "STRING$"), (0xBA, "TAN"), (0xBC, "VAL"), (0xBD, "WEND"), (0xBE, "WHILE"),
   (0xBF, "WRITE"), (0xC0, "ELSEIF"), (0xC1, "CLNG"), (0xC2, "CVL"), (0xC3, "MKL$"),
   (0xE3, "STATIC"), (0xE4, "USING"), (0xE5, "TO"), (0xE6, "THEN"), (0xE7, "NOT"), (0xE8, "'"),
   (0xE9, ">"), (0xEA, "="), (0xEB, "<"), (0xEC, "+"), (0xED, "-"), (0xEE, "*"), (0xEF, "/"),
   (0xF0, "^"), (0xF1, "AND"), (0xF2, "OR"), (0xF3, "XOR"), (0xF4, "EQV"), (0xF5, "IMP"),
   (0xF6, "MOD"), (0xF7, "\\")]

/-- The keywords behind the lead byte F8: statements and functions. -/
def statements : List (Nat × String) :=
  [(0x80, "AUTO"), (0x81, "CHAIN"), (0x82, "CLEAR"), (0x83, "CLS"), (0x84, "CONT"), (0x85, "CSNG"),
   (0x86, "DATE$"), (0x87, "DEFINT"), (0x88, "DEFSNG"), (0x89, "DEFDBL"), (0x8A, "DEFSTR"),
   (0x8B, "DEF"), (0x8C, "DELETE"), (0x8D, "DIM"), (0x8E, "EDIT"), (0x8F, "END"), (0x90, "ERASE"),
   (0x91, "ERL"), (0x92, "ERROR"), (0x93, "ERR"), (0x94, "FILES"), (0x95, "FRE"), (0x96, "HEX$"),
   (0x97, "INSTR"), (0x98, "KILL"), (0x99, "LIST"), (0x9A, "LLIST"), (0x9B, "LOAD"),
   (0x9C, "LPOS"), (0x9D, "LPRINT"), (0x9E, "MERGE"), (0x9F, "NAME"), (0xA0, "NEW"),
   (0xA1, "OCT$"), (0xA2, "OPTION"), (0xA3, "PEEK"), (0xA4, "POKE"), (0xA5, "POS"),
   (0xA6, "RANDOMIZE"), (0xA7, "RENUM"), (0xA8, "RESTORE"), (0xA9, "RESUME"), (0xAA, "RUN"),
   (0xAB, "SAVE"), (0xAC, "SHELL"), (0xAD, "STOP"), (0xAE, "SWAP"), (0xAF, "SYSTEM"),
   (0xB0, "TIME$"), (0xB1, "TRON"), (0xB2, "TROFF"), (0xB3, "VARPTR"), (0xB4, "WIDTH"),
   (0xB5, "BEEP"), (0xB6, "CIRCLE"), (0xB7, "LCOPY"), (0xB8, "MOUSE"), (0xB9, "POINT"),
   (0xBA, "PRESET"), (0xBB, "PSET"), (0xBC, "RESET"), (0xBD, "TIMER"), (0xBE, "SUB"),
   (0xBF, "EXIT"), (0xC0, "SOUND"), (0xC1, "BUTTON"), (0xC2, "MENU"), (0xC3, "WINDOW"),
   (0xC4, "DIALOG"), (0xC5, "LOCATE"), (0xC6, "CSRLIN"), (0xC7, "LBOUND"), (0xC8, "UBOUND"),
   (0xC9, "SHARED"), (0xCA, "UCASE$"), (0xCB, "SCROLL"), (0xCC, "LIBRARY"), (0xCD, "CVSBCD"),
   (0xCE, "CVDBCD"), (0xCF, "MKSBCD$"), (0xD0, "MKDBCD$"), (0xD6, "DEFLNG"), (0xD7, "SADD"),
   (0xD9, "COLOR"), (0xDB, "PALETTE"), (0xDD, "CHDIR"), (0xE0, "CASE"), (0xE1, "PRINTDIALOG"),
   (0xE2, "SCROLLBAR"), (0xE3, "SELECT")]

/-- The keywords behind the lead byte F9: words inside statements. -/
def clauses : List (Nat × String) :=
  [(0xF2, "IS"), (0xF3, "ABOUT"), (0xF4, "OFF"), (0xF5, "BREAK"), (0xF6, "WAIT"), (0xF7, "USR"),
   (0xF8, "TAB"), (0xF9, "STEP"), (0xFA, "SPC"), (0xFB, "OUTPUT"), (0xFC, "BASE"), (0xFD, "AS"),
   (0xFE, "APPEND"), (0xFF, "ALL")]

/-- The keywords behind the lead byte FA: pictures, sounds and memory. -/
def memory : List (Nat × String) :=
  [(0x80, "PICTURE"), (0x81, "WAVE"), (0x82, "POKEW"), (0x83, "POKEL"), (0x84, "PEEKW"),
   (0x85, "PEEKL")]

/-- The keywords behind the lead byte FB: the toolbox. -/
def toolbox : List (Nat × String) :=
  [(0xC8, "TECALTEXT"), (0xC9, "TEUPDATE"), (0xCA, "TEDEACTIVATE"), (0xCB, "TEACTIVATE"),
   (0xCC, "TEINSERT"), (0xCD, "TEDELETE"), (0xCE, "TEKEY"), (0xCF, "TESCROLL"),
   (0xD0, "TESETSELECT"), (0xD1, "TESETTEXT"), (0xD2, "FILLPOLY"), (0xD3, "INVERTPOLY"),
   (0xD4, "ERASEPOLY"), (0xD5, "PAINTPOLY"), (0xD6, "FRAMEPOLY"), (0xD7, "PTAB"),
   (0xD8, "FILLARC"), (0xD9, "INVERTARC"), (0xDA, "ERASEARC"), (0xDB, "PAINTARC"),
   (0xDC, "FRAMEARC"), (0xDD, "FILLROUNDRECT"), (0xDE, "INVERTROUNDRECT"),
   (0xDF, "ERASEROUNDRECT"), (0xE0, "PAINTROUNDRECT"), (0xE1, "FRAMEROUNDRECT"),
   (0xE2, "FILLOVAL"), (0xE3, "INVERTOVAL"), (0xE4, "ERASEOVAL"), (0xE5, "PAINTOVAL"),
   (0xE6, "FRAMEOVAL"), (0xE7, "FILLRECT"), (0xE8, "INVERTRECT"), (0xE9, "ERASERECT"),
   (0xEA, "PAINTRECT"), (0xEB, "FRAMERECT"), (0xEC, "TEXTSIZE"), (0xED, "TEXTMODE"),
   (0xEE, "TEXTFACE"), (0xEF, "TEXTFONT"), (0xF0, "LINETO"), (0xF1, "MOVE"), (0xF2, "MOVETO"),
   (0xF3, "PENNORMAL"), (0xF4, "PENPAT"), (0xF5, "PENMODE"), (0xF6, "PENSIZE"), (0xF7, "GETPEN"),
   (0xF8, "SHOWPEN"), (0xF9, "HIDEPEN"), (0xFA, "OBSCURECURSOR"), (0xFB, "SHOWCURSOR"),
   (0xFC, "HIDECURSOR"), (0xFD, "SETCURSOR"), (0xFE, "INITCURSOR"), (0xFF, "BACKPAT")]

/-- The keywords of two bytes by their lead byte. -/
def pages : List (Nat × List (Nat × String)) :=
  [(0xF8, statements), (0xF9, clauses), (0xFA, memory), (0xFB, toolbox)]

end SavedBasic.Mac
