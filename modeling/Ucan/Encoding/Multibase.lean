import Ucan.Encoding.BitGroups
import Ucan.Encoding.Triples

/-!
Text that names the base it is written in by its first character.
-/

set_option autoImplicit false

namespace Ucan.Multibase

inductive Base where
  | identity
  | base2
  | base8
  | base10
  | base16
  | base16Upper
  | base32
  | base32Upper
  | base32Pad
  | base32PadUpper
  | base32Hex
  | base32HexUpper
  | base32HexPad
  | base32HexPadUpper
  | base32Z
  | base36
  | base36Upper
  | base45
  | base58Flickr
  | base58Btc
  | base64
  | base64Pad
  | base64Url
  | base64UrlPad
  | base256Emoji
  deriving DecidableEq

namespace Base

def all : List Base :=
  [identity, base2, base8, base10, base16, base16Upper, base32, base32Upper, base32Pad,
    base32PadUpper, base32Hex, base32HexUpper, base32HexPad, base32HexPadUpper, base32Z, base36,
    base36Upper, base45, base58Flickr, base58Btc, base64, base64Pad, base64Url, base64UrlPad,
    base256Emoji]

def code : Base → Char
  | identity => '\x00'
  | base2 => '0'
  | base8 => '7'
  | base10 => '9'
  | base16 => 'f'
  | base16Upper => 'F'
  | base32 => 'b'
  | base32Upper => 'B'
  | base32Pad => 'c'
  | base32PadUpper => 'C'
  | base32Hex => 'v'
  | base32HexUpper => 'V'
  | base32HexPad => 't'
  | base32HexPadUpper => 'T'
  | base32Z => 'h'
  | base36 => 'k'
  | base36Upper => 'K'
  | base45 => 'R'
  | base58Flickr => 'Z'
  | base58Btc => 'z'
  | base64 => 'm'
  | base64Pad => 'M'
  | base64Url => 'u'
  | base64UrlPad => 'U'
  | base256Emoji => '🚀'

def ofCode? (c : Char) : Option Base := all.find? (·.code == c)

/-- How the symbols make up the bytes. -/
inductive Form where
  -- The text itself.
  | verbatim
  -- Groups of so many bits.
  | groups (width : Nat)
  -- Groups of so many bits, in blocks of so many symbols that are filled up with `=`.
  | padded (width block : Nat)
  -- Three symbols for two bytes.
  | triples
  -- The digits of one number.
  | positional

def form : Base → Form
  | identity => .verbatim
  | base2 => .groups 1
  | base8 => .groups 3
  | base16 | base16Upper => .groups 4
  | base32 | base32Upper | base32Hex | base32HexUpper | base32Z => .groups 5
  | base32Pad | base32PadUpper | base32HexPad | base32HexPadUpper => .padded 5 8
  | base64 | base64Url => .groups 6
  | base64Pad | base64UrlPad => .padded 6 4
  | base256Emoji => .groups 8
  | base45 => .triples
  | base10 | base36 | base36Upper | base58Flickr | base58Btc => .positional

def emoji : String :=
  "🚀🪐☄🛰🌌🌑🌒🌓🌔🌕🌖🌗🌘🌍🌏🌎🐉☀💻🖥💾💿😂❤😍🤣😊🙏💕😭😘👍" ++
  "😅👏😁🔥🥰💔💖💙😢🤔😆🙄💪😉☺👌🤗💜😔😎😇🌹🤦🎉💞✌✨🤷😱😌🌸🙌" ++
  "😋💗💚😏💛🙂💓🤩😄😀🖤😃💯🙈👇🎶😒🤭❣😜💋👀😪😑💥🙋😞😩😡🤪👊🥳" ++
  "😥🤤👉💃😳✋😚😝😴🌟😬🙃🍀🌷😻😓⭐✅🥺🌈😈🤘💦✔😣🏃💐☹🎊💘😠☝" ++
  "😕🌺🎂🌻😐🖕💝🙊😹🗣💫💀👑🎵🤞😛🔴😤🌼😫⚽🤙☕🏆🤫👈😮🙆🍻🍃🐶💁" ++
  "😲🌿🧡🎁⚡🌞🎈❌✊👋😰🤨😶🤝🚶💰🍓💢🤟🙁🚨💨🤬✈🎀🍺🤓😙💟🌱😖👶" ++
  "🥴▶➡❓💎💸⬇😨🌚🦋😷🕺⚠🙅😟😵👎🤲🤠🤧📌🔵💅🧐🐾🍒😗🤑🌊🤯🐷☎" ++
  "💧😯💆👆🎤🙇🍑❄🌴💣🐸💌📍🥀🤢👅💡💩👐📸👻🤐🤮🎼🥵🚩🍎🍊👼💍📣🥂"

/-- The symbols of the base in the order of their values; the two cases of a base that has them
share the lowercase ones. -/
def alphabet : Base → List Char
  | identity => []
  | base2 => "01".toList
  | base8 => "01234567".toList
  | base10 => "0123456789".toList
  | base16 | base16Upper => "0123456789abcdef".toList
  | base32 | base32Upper | base32Pad | base32PadUpper =>
    "abcdefghijklmnopqrstuvwxyz234567".toList
  | base32Hex | base32HexUpper | base32HexPad | base32HexPadUpper =>
    "0123456789abcdefghijklmnopqrstuv".toList
  | base32Z => "ybndrfg8ejkmcpqxot1uwisza345h769".toList
  | base36 | base36Upper => "0123456789abcdefghijklmnopqrstuvwxyz".toList
  | base45 => "0123456789abcdefghijklmnopqrstuvwxyz $%*+-./:".toList
  | base58Flickr => "123456789abcdefghijkmnopqrstuvwxyzABCDEFGHJKLMNPQRSTUVWXYZ".toList
  | base58Btc => "123456789ABCDEFGHJKLMNPQRSTUVWXYZabcdefghijkmnopqrstuvwxyz".toList
  | base64 | base64Pad =>
    "ABCDEFGHIJKLMNOPQRSTUVWXYZabcdefghijklmnopqrstuvwxyz0123456789+/".toList
  | base64Url | base64UrlPad =>
    "ABCDEFGHIJKLMNOPQRSTUVWXYZabcdefghijklmnopqrstuvwxyz0123456789-_".toList
  | base256Emoji => emoji.toList

def ignoresCase : Base → Bool
  | base16 | base16Upper | base32 | base32Upper | base32Pad | base32PadUpper | base32Hex
  | base32HexUpper | base32HexPad | base32HexPadUpper | base36 | base36Upper | base45 => true
  | _ => false

def value? (base : Base) (c : Char) : Option Nat :=
  base.alphabet.idxOf? (if base.ignoresCase then c.toLower else c)

def values? (base : Base) (text : List Char) : Option (List Nat) := text.mapM base.value?

def decodeBlock? (base : Base) (width : Nat) (block : List Char) : Option Bytes := do
  let symbols := (block.reverse.dropWhile (· == '=')).reverse
  if symbols.isEmpty then none
  else BitGroups.decode? width (← base.values? symbols)

/-- Blocks of `size` symbols each; `blocks` bounds their number. -/
def decodeBlocks? (base : Base) (width size : Nat) : (blocks : Nat) → List Char → Option Bytes
  | 0, text => if text.isEmpty then some [] else none
  | blocks + 1, text =>
    if text.isEmpty then some []
    else if text.length < size then none
    else do
      let front ← base.decodeBlock? width (text.take size)
      let back ← base.decodeBlocks? width size blocks (text.drop size)
      some (front ++ back)

def decode? (base : Base) (text : List Char) : Option Bytes :=
  match base.form with
  | .verbatim => some (utf8 (String.ofList text))
  | .groups width => do BitGroups.decode? width (← base.values? text)
  | .padded width block => base.decodeBlocks? width block text.length text
  | .triples => do Triples.decode? base.alphabet.length (← base.values? text)
  | .positional => do some (Positional.decode base.alphabet.length (← base.values? text))

end Base

def decode? (text : String) : Option (Base × Bytes) :=
  match text.toList with
  | [] => none
  | c :: rest => do
    let base ← Base.ofCode? c
    some (base, ← base.decode? rest)

def symbolAt (alphabet : List Char) (v : Nat) : Char := alphabet.getD v '?'

def encodeBase58 (b : Bytes) : String :=
  String.ofList (Base.base58Btc.code ::
    (Positional.encode 58 b).map (symbolAt Base.base58Btc.alphabet))

def encodeBase32 (b : Bytes) : String :=
  String.ofList (Base.base32.code :: (BitGroups.encode 5 b).map (symbolAt Base.base32.alphabet))

end Ucan.Multibase
