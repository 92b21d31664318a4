import PacketStack.Crypto.Md5
import PacketStack.Crypto.Sha1

/-!
Keyed digests, and keys made of passphrases and of other keys by them.
-/

namespace PacketStack.Hmac

def blockKey (hash : Bytes → Bytes) (key : Bytes) : Bytes :=
  let short := if Digest.blockSize < key.length then hash key else key
  short ++ List.replicate (Digest.blockSize - short.length) 0

def keyed (hash : Bytes → Bytes) (key message : Bytes) : Bytes :=
  let key := blockKey hash key
  hash (key.map (· ^^^ 0x5c) ++ hash (key.map (· ^^^ 0x36) ++ message))

def sha1 (key message : Bytes) : Bytes := keyed (fun bytes => (Sha1.hash bytes).bytes) key message

def md5 (key message : Bytes) : Bytes := keyed (fun bytes => (Md5.hash bytes).bytes) key message

def iterate (digest : Bytes → Bytes) : Nat → Bytes → Bytes → Bytes
  | 0, _, combined => combined
  | rounds + 1, last, combined =>
      let next := digest last
      iterate digest rounds next (Bytes.xor combined next)

def passphraseBlock (passphrase salt : Bytes) (rounds index : Nat) : Bytes :=
  let first := sha1 passphrase (salt ++ Bytes.ofNatBE 4 index)
  iterate (sha1 passphrase) (rounds - 1) first first

def ofPassphrase (passphrase salt : Bytes) (rounds size : Nat) : Octets size :=
  .ofBytes size <| (List.range ((size + 19) / 20)).flatMap fun i =>
    passphraseBlock passphrase salt rounds (i + 1)

def expand (key label data : Bytes) (size : Nat) : Octets size :=
  .ofBytes size <| (List.range ((size + 19) / 20)).flatMap fun i =>
    sha1 key (label ++ 0 :: data ++ [UInt8.ofNat i])

end PacketStack.Hmac
