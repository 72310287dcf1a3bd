import AsciiMath.Symbol.Basic

/-!
# The standard symbols

The keywords of AsciiMath with their TeX, group by group. No keyword occurs twice.
-/

namespace AsciiMath.Standard

def plainSymbols (category : Category) (entries : List (String × String)) :
    List (String × Symbol) :=
  entries.map fun (keyword, template) => (keyword, ⟨template, category, none⟩)

def scripts : List (String × Symbol) :=
  plainSymbols .script [("^", "^\x7b $1 \x7d"), ("_", "_\x7b $1 \x7d")]

def separators : List (String × Symbol) :=
  plainSymbols .separator [(",", ","), (";", ";")]

def alignPoints : List (String × Symbol) :=
  plainSymbols .alignMark [("&", "&")]

def signs : List (String × Symbol) :=
  plainSymbols .sign [("+", "+"), ("-", "-")]

def infixOperators : List (String × Symbol) :=
  plainSymbols .infixOp
    [("/", "\\frac\x7b $1 \x7d\x7b $2 \x7d"), ("choose", "\\binom\x7b $1 \x7d\x7b $2 \x7d")]

def postfixOperators : List (String × Symbol) :=
  plainSymbols .postfixOp [("!", "$1 !"), ("!!", "$1 !!")]

def greekLetters : List (String × Symbol) :=
  plainSymbols .letter
    [("alpha", "\\alpha"), ("beta", "\\beta"), ("chi", "\\chi"), ("delta", "\\delta"),
      ("Delta", "\\Delta"), ("epsi", "\\epsilon"), ("epsilon", "\\epsilon"),
      ("varepsilon", "\\varepsilon"), ("eta", "\\eta"), ("gamma", "\\gamma"),
      ("Gamma", "\\Gamma"), ("iota", "\\iota"), ("kappa", "\\kappa"), ("lambda", "\\lambda"),
      ("Lambda", "\\Lambda"), ("lamda", "\\lambda"), ("Lamda", "\\Lambda"), ("mu", "\\mu"),
      ("nu", "\\nu"), ("omega", "\\omega"), ("Omega", "\\Omega"), ("phi", "\\phi"),
      ("varphi", "\\varphi"), ("Phi", "\\Phi"), ("pi", "\\pi"), ("Pi", "\\Pi"), ("psi", "\\psi"),
      ("Psi", "\\Psi"), ("rho", "\\rho"), ("sigma", "\\sigma"), ("Sigma", "\\Sigma"),
      ("tau", "\\tau"), ("theta", "\\theta"), ("vartheta", "\\vartheta"), ("Theta", "\\Theta"),
      ("upsilon", "\\upsilon"), ("xi", "\\xi"), ("Xi", "\\Xi"), ("zeta", "\\zeta")]

def operations : List (String × Symbol) :=
  plainSymbols .constant
    [("*", "\\cdot"), ("cdot", "\\cdot"), ("**", "\\ast"), ("ast", "\\ast"), ("***", "\\star"),
      ("star", "\\star"), ("//", "/"), ("\\\\", "\\backslash"), ("backslash", "\\backslash"),
      ("setminus", "\\setminus"), ("xx", "\\times"), ("times", "\\times"), ("|><", "\\ltimes"),
      ("ltimes", "\\ltimes"), ("><|", "\\rtimes"), ("rtimes", "\\rtimes"), ("|><|", "\\bowtie"),
      ("bowtie", "\\bowtie"), ("-:", "\\div"), ("div", "\\div"), ("divide", "\\div"),
      ("@", "\\circ"), ("circ", "\\circ"), ("o+", "\\oplus"), ("oplus", "\\oplus"),
      ("ox", "\\otimes"), ("otimes", "\\otimes"), ("o.", "\\odot"), ("odot", "\\odot"),
      ("sum", "\\sum"), ("prod", "\\prod"), ("^^", "\\wedge"), ("wedge", "\\wedge"),
      ("^^^", "\\bigwedge"), ("bigwedge", "\\bigwedge"), ("vv", "\\vee"), ("vee", "\\vee"),
      ("vvv", "\\bigvee"), ("bigvee", "\\bigvee"), ("nn", "\\cap"), ("cap", "\\cap"),
      ("nnn", "\\bigcap"), ("bigcap", "\\bigcap"), ("uu", "\\cup"), ("cup", "\\cup"),
      ("uuu", "\\bigcup"), ("bigcup", "\\bigcup")]

def relations : List (String × Symbol) :=
  plainSymbols .constant
    [("=", "="), ("!=", "\\neq"), ("ne", "\\neq"), (":=", ":="), ("<", "<"), ("lt", "<"),
      ("<=", "\\leq"), ("le", "\\leq"), ("lt=", "\\leq"), ("leq", "\\leq"), (">", ">"),
      ("gt", ">"), ("mlt", "\\ll"), ("ll", "\\ll"), (">=", "\\geq"), ("ge", "\\geq"),
      ("gt=", "\\geq"), ("geq", "\\geq"), ("mgt", "\\gg"), ("gg", "\\gg"), ("-<", "\\prec"),
      ("prec", "\\prec"), ("-lt", "\\prec"), (">-", "\\succ"), ("succ", "\\succ"),
      ("-<=", "\\preceq"), ("preceq", "\\preceq"), (">-=", "\\succeq"), ("succeq", "\\succeq"),
      ("in", "\\in"), ("!in", "\\notin"), ("notin", "\\notin"), ("sub", "\\subset"),
      ("subset", "\\subset"), ("sup", "\\supset"), ("supset", "\\supset"), ("sube", "\\subseteq"),
      ("subseteq", "\\subseteq"), ("supe", "\\supseteq"), ("supseteq", "\\supseteq"),
      ("-=", "\\equiv"), ("equiv", "\\equiv"), ("~=", "\\cong"), ("cong", "\\cong"),
      ("~~", "\\approx"), ("approx", "\\approx"), ("~", "\\sim"), ("sim", "\\sim"),
      ("prop", "\\propto"), ("propto", "\\propto")]

def connectives : List (String × Symbol) :=
  plainSymbols .constant
    [("and", "\\text\x7b and \x7d"), ("or", "\\text\x7b or \x7d"), ("not", "\\neg"),
      ("neg", "\\neg"), ("=>", "\\Rightarrow"), ("implies", "\\Rightarrow"),
      ("if", "\\text\x7b if \x7d"), ("<=>", "\\Leftrightarrow"), ("iff", "\\Leftrightarrow"),
      ("AA", "\\forall"), ("forall", "\\forall"), ("EE", "\\exists"), ("exists", "\\exists"),
      ("_|_", "\\bot"), ("bot", "\\bot"), ("TT", "\\top"), ("top", "\\top"), ("|--", "\\vdash"),
      ("vdash", "\\vdash"), ("|==", "\\models"), ("models", "\\models")]

def miscellany : List (String × Symbol) :=
  plainSymbols .constant
    [("int", "\\int"), ("iint", "\\iint"), ("oint", "\\oint"), ("del", "\\partial"),
      ("partial", "\\partial"), ("grad", "\\nabla"), ("nabla", "\\nabla"), ("+-", "\\pm"),
      ("pm", "\\pm"), ("-+", "\\mp"), ("mp", "\\mp"), ("O/", "\\emptyset"),
      ("emptyset", "\\emptyset"), ("oo", "\\infty"), ("infty", "\\infty"), ("aleph", "\\aleph"),
      ("...", "\\ldots"), ("ldots", "\\ldots"), (":.", "\\therefore"),
      ("therefore", "\\therefore"), (":'", "\\because"), ("because", "\\because"),
      ("/_", "\\angle"), ("angle", "\\angle"), ("/_\\", "\\triangle"), ("triangle", "\\triangle"),
      ("'", "'"), ("prime", "\\prime"), ("\\ ", "\\ "), ("frown", "\\frown"), ("quad", "\\quad"),
      ("qquad", "\\qquad"), ("cdots", "\\cdots"), ("vdots", "\\vdots"), ("ddots", "\\ddots"),
      ("diamond", "\\diamond"), ("square", "\\square"), ("|__", "\\lfloor"),
      ("lfloor", "\\lfloor"), ("__|", "\\rfloor"), ("rfloor", "\\rfloor"), ("|~", "\\lceil"),
      ("lceiling", "\\lceil"), ("~|", "\\rceil"), ("rceiling", "\\rceil"),
      ("CC", "\\mathbb\x7bC\x7d"), ("NN", "\\mathbb\x7bN\x7d"), ("QQ", "\\mathbb\x7bQ\x7d"),
      ("RR", "\\mathbb\x7bR\x7d"), ("ZZ", "\\mathbb\x7bZ\x7d")] ++
  [("hline", ⟨"\\hline", .constant, some .rowRule⟩)]

def functionNames : List (String × Symbol) :=
  plainSymbols .constant
    [("lim", "\\lim"), ("Lim", "\\operatorname\x7bLim\x7d"), ("dim", "\\dim"), ("mod", "\\bmod"),
      ("lub", "\\operatorname\x7blub\x7d"), ("glb", "\\operatorname\x7bglb\x7d"),
      ("min", "\\min"), ("max", "\\max"), ("sin", "\\sin"), ("cos", "\\cos"), ("tan", "\\tan"),
      ("sinh", "\\sinh"), ("cosh", "\\cosh"), ("tanh", "\\tanh"), ("cot", "\\cot"),
      ("sec", "\\sec"), ("csc", "\\csc"), ("arcsin", "\\arcsin"), ("arccos", "\\arccos"),
      ("arctan", "\\arctan"), ("coth", "\\coth"), ("sech", "\\operatorname\x7bsech\x7d"),
      ("csch", "\\operatorname\x7bcsch\x7d"), ("exp", "\\exp"), ("log", "\\log"), ("ln", "\\ln"),
      ("det", "\\det"), ("gcd", "\\gcd"), ("lcm", "\\operatorname\x7blcm\x7d")]

def arrows : List (String × Symbol) :=
  plainSymbols .constant
    [("uarr", "\\uparrow"), ("uparrow", "\\uparrow"), ("darr", "\\downarrow"),
      ("downarrow", "\\downarrow"), ("rarr", "\\rightarrow"), ("rightarrow", "\\rightarrow"),
      ("->", "\\to"), ("to", "\\to"), (">->", "\\rightarrowtail"),
      ("rightarrowtail", "\\rightarrowtail"), ("->>", "\\twoheadrightarrow"),
      ("twoheadrightarrow", "\\twoheadrightarrow"), ("|->", "\\mapsto"), ("mapsto", "\\mapsto"),
      ("larr", "\\leftarrow"), ("leftarrow", "\\leftarrow"), ("harr", "\\leftrightarrow"),
      ("leftrightarrow", "\\leftrightarrow"), ("rArr", "\\Rightarrow"),
      ("Rightarrow", "\\Rightarrow"), ("lArr", "\\Leftarrow"), ("Leftarrow", "\\Leftarrow"),
      ("hArr", "\\Leftrightarrow"), ("Leftrightarrow", "\\Leftrightarrow")]

def labelledArrows : List (String × Symbol) :=
  plainSymbols .optionalScripts
    [("xrarr", "\\xrightarrow[ $2 ]\x7b $1 \x7d"), ("xlarr", "\\xleftarrow[ $2 ]\x7b $1 \x7d"),
      ("xharr", "\\xleftrightarrow[ $2 ]\x7b $1 \x7d")]

def derivatives : List (String × Symbol) :=
  plainSymbols .derivative [("pp", "\\partial"), ("dd", "\\mathrm\x7bd\x7d")]

def wrappers : List (String × Symbol) :=
  plainSymbols .prefixUnary
    [("sqrt", "\\sqrt\x7b $1 \x7d"), ("abs", "\\left| $1 \\right|"),
      ("norm", "\\left\\| $1 \\right\\|"), ("floor", "\\left\\lfloor $1 \\right\\rfloor"),
      ("ceil", "\\left\\lceil $1 \\right\\rceil"), ("hat", "\\hat\x7b $1 \x7d"),
      ("bar", "\\overline\x7b $1 \x7d"), ("overline", "\\overline\x7b $1 \x7d"),
      ("vec", "\\vec\x7b $1 \x7d"), ("dot", "\\dot\x7b $1 \x7d"), ("ddot", "\\ddot\x7b $1 \x7d"),
      ("tilde", "\\tilde\x7b $1 \x7d"), ("ul", "\\underline\x7b $1 \x7d"),
      ("underline", "\\underline\x7b $1 \x7d"), ("ubrace", "\\underbrace\x7b $1 \x7d"),
      ("underbrace", "\\underbrace\x7b $1 \x7d"), ("obrace", "\\overbrace\x7b $1 \x7d"),
      ("overbrace", "\\overbrace\x7b $1 \x7d"), ("cancel", "\\cancel\x7b $1 \x7d"),
      ("bb", "\\mathbf\x7b $1 \x7d"), ("mathbf", "\\mathbf\x7b $1 \x7d"),
      ("sf", "\\mathsf\x7b $1 \x7d"), ("mathsf", "\\mathsf\x7b $1 \x7d"),
      ("bbb", "\\mathbb\x7b $1 \x7d"), ("mathbb", "\\mathbb\x7b $1 \x7d"),
      ("cc", "\\mathcal\x7b $1 \x7d"), ("mathcal", "\\mathcal\x7b $1 \x7d"),
      ("tt", "\\mathtt\x7b $1 \x7d"), ("mathtt", "\\mathtt\x7b $1 \x7d"),
      ("fr", "\\mathfrak\x7b $1 \x7d"), ("mathfrak", "\\mathfrak\x7b $1 \x7d")] ++
  [("text", ⟨"\\text\x7b$1\x7d", .prefixUnary, some .rawText⟩),
    ("mbox", ⟨"\\mbox\x7b$1\x7d", .prefixUnary, some .rawText⟩),
    ("op", ⟨"\\operatorname\x7b$1\x7d", .prefixUnary, some .rawText⟩),
    ("tex", ⟨"$1", .prefixUnary, some .texLiteral⟩),
    ("hspace", ⟨"\\hspace\x7b$1\x7d", .prefixUnary, some .lengthLiteral⟩)]

def pairOperators : List (String × Symbol) :=
  plainSymbols .prefixBinary
    [("frac", "\\frac\x7b $1 \x7d\x7b $2 \x7d"), ("root", "\\sqrt[ $1 ]\x7b $2 \x7d"),
      ("stackrel", "\\stackrel\x7b $1 \x7d\x7b $2 \x7d"),
      ("overset", "\\overset\x7b $1 \x7d\x7b $2 \x7d"),
      ("underset", "\\underset\x7b $1 \x7d\x7b $2 \x7d")] ++
  [("color", ⟨"\x7b \\color\x7b$1\x7d $2 \x7d", .prefixBinary, some .colorSpec⟩)]

def openers : List (String × Symbol) :=
  plainSymbols .opener
    [("(", "\\left("), ("[", "\\left["), ("\x7b", "\\left\\lbrace"), ("(:", "\\left\\langle"),
      ("<<", "\\left\\langle"), ("langle", "\\left\\langle"), ("\x7b:", "\\left."),
      ("|:", "\\left|")]

def closers : List (String × Symbol) :=
  plainSymbols .closer
    [(")", "\\right)"), ("]", "\\right]"), ("\x7d", "\\right\\rbrace"), (":)", "\\right\\rangle"),
      (">>", "\\right\\rangle"), ("rangle", "\\right\\rangle"), (":\x7d", "\\right."),
      (":|", "\\right|")]

def bars : List (String × Symbol) :=
  plainSymbols .bar [("|", "|"), ("||", "\\|")]

def differentials : List (String × Symbol) :=
  plainSymbols .constant [("dx", "dx"), ("dy", "dy"), ("dz", "dz"), ("dt", "dt")]

def symbols : List (String × Symbol) :=
  scripts ++ separators ++ alignPoints ++ signs ++ infixOperators ++ postfixOperators ++
    greekLetters ++ operations ++ relations ++ connectives ++ miscellany ++ functionNames ++
    arrows ++ labelledArrows ++ derivatives ++ wrappers ++ pairOperators ++ openers ++ closers ++
    bars ++ differentials

end AsciiMath.Standard
